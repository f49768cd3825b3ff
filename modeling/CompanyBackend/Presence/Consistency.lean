import CompanyBackend.Presence.Sessions

/-!
# Whether the two presence sets agree

Seen from one user, a call has at most one thing left to do that matters: to announce the
user, to remove a session, to look whether there are sessions left, or to remove the user
from the list. These duties and their steps are an abstract machine, which the calls refine.

The invariant of the abstract machine says what is known of the user while duties are left.
Once all calls have finished, what remains of it is that the user is listed as online exactly
when they have a session.
-/

namespace Company

open Redis Pool Function Finset

abbrev PresencePool (ι : Type) := Pool ι PresenceCall Redis

/-- What Redis holds of one user. -/
structure PresenceView where
  sessions : Finset String
  listed : Bool

/-- What a call has left to do for one user. -/
inductive Duty where
  | none
  | announcing (session : String)
  | removing (session : String)
  | looking
  | retiring
  deriving DecidableEq, Repr

namespace Duty

def announces : Duty → Bool
  | announcing _ => true
  | _ => false

def removes : Duty → Option String
  | removing session => some session
  | _ => Option.none

/-- A session has been removed, and the list may have to follow. -/
def departs : Duty → Bool
  | looking | retiring => true
  | _ => false

end Duty

/-- A call does its duty. -/
inductive Moves : Duty → PresenceView → Duty → PresenceView → Prop
  | rests {duty presence} : Moves duty presence duty presence
  | adds {sessions listed} (session : String) :
      Moves .none ⟨sessions, listed⟩ (.announcing session) ⟨insert session sessions, listed⟩
  | announces {sessions listed session} :
      Moves (.announcing session) ⟨sessions, listed⟩ .none ⟨sessions, true⟩
  | removes {sessions listed session} :
      Moves (.removing session) ⟨sessions, listed⟩ .looking ⟨sessions.erase session, listed⟩
  | findsNone {listed} : Moves .looking ⟨∅, listed⟩ .retiring ⟨∅, listed⟩
  | findsSome {sessions listed} (nonempty : sessions.Nonempty) :
      Moves .looking ⟨sessions, listed⟩ .none ⟨sessions, listed⟩
  | retires {sessions listed} : Moves .retiring ⟨sessions, listed⟩ .none ⟨sessions, false⟩

/-- What is known of a user while calls have duties left. -/
structure Tracked {ι : Type} (duties : ι → Duty) (presence : PresenceView) : Prop where
  /-- A user without sessions leaves the list when the last of the departing calls is done. -/
  listed : presence.listed → presence.sessions.Nonempty ∨ ∃ i, (duties i).departs
  /-- A user with sessions is listed, or about to be. -/
  present : presence.sessions.Nonempty → presence.listed ∨ ∃ i, (duties i).announces
  /-- The user is removed from the list for a reason, or announced again later. -/
  retiring : (∃ i, duties i = .retiring) → presence.sessions = ∅ ∨ ∃ i, (duties i).announces
  /-- Only sessions that exist are announced. -/
  announcing : ∀ i session, duties i = .announcing session → session ∈ presence.sessions

/-- Nobody announces a user who is about to be removed from the list, and nobody
removes a session that is about to be announced. -/
structure KeepsApart {ι : Type} (duties : ι → Duty) (i : ι) : Prop where
  announcing : (duties i).announces → ∀ j, duties j ≠ .retiring
  removing : ∀ session ∈ (duties i).removes, ∀ j, duties j ≠ .announcing session

instance decidableKeepsApart {ι : Type} [Fintype ι] (duties : ι → Duty) (i : ι) :
    Decidable (KeepsApart duties i) :=
  decidable_of_iff
    (((duties i).announces → ∀ j, duties j ≠ .retiring) ∧
      ∀ session ∈ (duties i).removes, ∀ j, duties j ≠ .announcing session)
    ⟨fun ⟨announcing, removing⟩ => ⟨announcing, removing⟩,
      fun apart => ⟨apart.announcing, apart.removing⟩⟩

section Moves

variable {ι : Type} [DecidableEq ι] {duties : ι → Duty} {i : ι} {duty : Duty}
variable {presence after : PresenceView}

/-- Sessions that are still to be announced have to be kept. -/
theorem announcing_of_update (tracked : Tracked duties presence) (fresh : duty.announces = false)
    (kept : ∀ j, ∀ session ∈ presence.sessions, duties j = .announcing session →
      session ∈ after.sessions) :
    ∀ j session, update duties i duty j = .announcing session →
      session ∈ after.sessions := by
  refine forall_update
    (fun duty : Duty => ∀ session, duty = .announcing session → session ∈ after.sessions) ?_ ?_
  · rintro session rfl
    contradiction
  · intro j session held
    exact kept j session (tracked.announcing j session held) held

theorem tracked_of_adds {sessions : Finset String} {listed : Bool} {session : String}
    (tracked : Tracked duties ⟨sessions, listed⟩) :
    Tracked (update duties i (.announcing session)) ⟨insert session sessions, listed⟩ where
  listed _ := .inl (insert_nonempty ..)
  present _ := .inr ⟨i, by rw [update_self]; rfl⟩
  retiring _ := .inr ⟨i, by rw [update_self]; rfl⟩
  announcing := by
    refine forall_update
      (fun duty : Duty => ∀ other, duty = .announcing other → other ∈ insert session sessions) ?_ ?_
    · rintro other ⟨⟩
      exact mem_insert_self ..
    · intro j other held
      exact mem_insert_of_mem (tracked.announcing j other held)

theorem Moves.tracked (moves : Moves (duties i) presence duty after)
    (tracked : Tracked duties presence) (apart : KeepsApart duties i) :
    Tracked (update duties i duty) after := by
  generalize before : duties i = start at moves
  have quiet (silent : start.announces = false) (found : ∃ j, (duties j).announces) :
      ∃ j, (update duties i duty j).announces :=
    exists_update (fun duty : Duty => duty.announces) found (by simp [before, silent])
  cases moves with
  | rests =>
    rw [← before, update_eq_self]
    exact tracked
  | adds session => exact tracked_of_adds tracked
  | @announces sessions listed session =>
    have stored : session ∈ sessions := tracked.announcing i session before
    refine ⟨fun _ => .inl ⟨session, stored⟩, fun _ => .inl rfl, ?_, ?_⟩
    · intro found
      obtain ⟨j, retiring⟩ := of_exists_update (· = Duty.retiring) found nofun
      exact absurd retiring (apart.announcing (by rw [before]; rfl) j)
    · exact announcing_of_update tracked rfl fun _ _ member _ => member
  | @removes sessions listed session =>
    refine ⟨fun _ => .inr ⟨i, by rw [update_self]; rfl⟩, ?_, ?_, ?_⟩
    · intro nonempty
      exact (tracked.present (nonempty.mono (erase_subset ..))).imp_right (quiet rfl)
    · intro found
      have before := tracked.retiring (of_exists_update (· = Duty.retiring) found nofun)
      refine before.imp (fun empty => ?_) (quiet rfl)
      show sessions.erase session = ∅
      rw [show sessions = ∅ from empty, erase_empty]
    · refine announcing_of_update tracked rfl ?_
      intro j other member held
      refine mem_erase_of_ne_of_mem ?_ member
      rintro rfl
      exact apart.removing other (by rw [before]; rfl) j held
  | findsNone =>
    refine ⟨fun _ => .inr ⟨i, by rw [update_self]; rfl⟩, ?_, fun _ => .inl rfl, ?_⟩
    · intro nonempty
      exact absurd nonempty not_nonempty_empty
    · exact announcing_of_update tracked rfl fun _ _ member _ => member
  | findsSome nonempty =>
    refine ⟨fun _ => .inl nonempty, ?_, ?_, ?_⟩
    · intro _
      exact (tracked.present nonempty).imp_right (quiet rfl)
    · intro found
      have before := tracked.retiring (of_exists_update (· = Duty.retiring) found nofun)
      exact before.imp_right (quiet rfl)
    · exact announcing_of_update tracked rfl fun _ _ member _ => member
  | retires =>
    have reason := (tracked.retiring ⟨i, before⟩).imp_right (quiet rfl)
    refine ⟨nofun, ?_, fun _ => reason, ?_⟩
    · intro nonempty
      exact .inr (reason.resolve_left nonempty.ne_empty)
    · exact announcing_of_update tracked rfl fun _ _ member _ => member

end Moves

variable (userId : String)

def PresenceCall.duty : PresenceCall → Duty
  | .create call (.announcing _) =>
    if call.user.id = userId then .announcing (sessionMember call.sessionId) else .none
  | .delete call .removing =>
    if call.user.id = userId then .removing (sessionMember call.sessionId) else .none
  | .delete call .leaving | .delete call .counting =>
    if call.user.id = userId then .looking else .none
  | .delete call .retiring => if call.user.id = userId then .retiring else .none
  | _ => .none

def Redis.presence (redis : Redis) : PresenceView where
  sessions := redis.sets userId
  listed := userId ∈ redis.sets onlineSet

variable {redis : Redis}

namespace Redis

variable {user : PresenceUser} {key : String} {members : Finset String}

/-- Either command writes one set. -/
def write (key : String) (members : Finset String) (redis : Redis) : Redis :=
  { redis with sets := update redis.sets key members }

theorem sadd_eq_write (member : String) :
    redis.sadd key member = redis.write key (insert member (redis.sets key)) := rfl

theorem srem_eq_write (member : String) :
    redis.srem key member = redis.write key ((redis.sets key).erase member) := rfl

theorem presence_write_of_ne (other : key ≠ user.id)
    (unlisted : key = onlineSet → (user.id ∈ members ↔ user.id ∈ redis.sets onlineSet)) :
    (redis.write key members).presence user.id = redis.presence user.id := by
  have sessions : (redis.write key members).sets user.id = redis.sets user.id :=
    update_of_ne (Ne.symm other) ..
  have listed : user.id ∈ (redis.write key members).sets onlineSet ↔
      user.id ∈ redis.sets onlineSet := by
    by_cases online : key = onlineSet
    · simpa [write, online] using unlisted online
    · simp [write, Ne.symm online]
  simp [presence, sessions, listed]

theorem presence_write_self : (redis.write user.id members).presence user.id =
    ⟨members, decide (user.id ∈ redis.sets onlineSet)⟩ := by
  simp [presence, write, user.notOnline.symm]

theorem presence_write_online : (redis.write onlineSet members).presence user.id =
    ⟨redis.sets user.id, decide (user.id ∈ members)⟩ := by
  simp [presence, write, user.notOnline]

end Redis

open PresenceCall

section Refinement

variable {user : PresenceUser}

theorem ne_regionKey {key : String} (other : key.toList[0]? ≠ some 'r') (regionId : UInt16) :
    key ≠ regionKey regionId := by
  have long : 0 < "region".toList.length := by decide +kernel
  intro same
  apply other
  calc key.toList[0]?
    _ = (regionKey regionId).toList[0]? := by rw [same]
    _ = "region".toList[0]? := letter_append long (toString regionId.toNat)
    _ = some 'r' := by decide +kernel

theorem onlineSet_ne_regionKey (regionId : UInt16) : onlineSet ≠ regionKey regionId :=
  ne_regionKey (by decide +kernel) regionId

theorem presence_write_region (regionId : UInt16) (members : Finset String) :
    (redis.write (regionKey regionId) members).presence user.id = redis.presence user.id :=
  presence_write_of_ne (user.notRegion regionId).symm
    fun online => absurd online.symm (onlineSet_ne_regionKey regionId)

variable (call : CreateSession) (progress : CreateProgress)

theorem CreateSession.presence_next_of_ne (other : call.user.id ≠ user.id) :
    (call.next progress redis).2.presence user.id = redis.presence user.id := by
  cases progress with
  | counting | finished => rfl
  | adding => exact presence_write_of_ne other fun online => absurd online call.user.notOnline
  | announcing =>
    exact presence_write_of_ne user.notOnline.symm fun _ => by simp [Ne.symm other]
  | placing => exact presence_write_region ..

theorem DeleteSession.presence_next_of_ne (call : DeleteSession) (progress : DeleteProgress)
    (other : call.user.id ≠ user.id) :
    (call.next progress redis).2.presence user.id = redis.presence user.id := by
  cases progress with
  | counting | finished => rfl
  | removing =>
    exact presence_write_of_ne other fun online => absurd online call.user.notOnline
  | leaving => exact presence_write_region ..
  | retiring =>
    exact presence_write_of_ne user.notOnline.symm fun _ => by simp [Ne.symm other]

theorem CreateSession.duty_of_ne (other : call.user.id ≠ user.id) :
    (create call progress).duty user.id = .none := by
  cases progress <;> simp [duty, other]

theorem DeleteSession.duty_of_ne (call : DeleteSession) (progress : DeleteProgress)
    (other : call.user.id ≠ user.id) : (delete call progress).duty user.id = .none := by
  cases progress <;> simp [duty, other]

theorem CreateSession.moves :
    Moves ((create call progress).duty call.user.id) (redis.presence call.user.id)
      ((create call (call.next progress redis).1).duty call.user.id)
      ((call.next progress redis).2.presence call.user.id) := by
  cases progress with
  | counting | finished => exact .rests
  | adding =>
    simp only [next, duty, if_true, sadd_eq_write, presence_write_self]
    exact .adds _
  | announcing =>
    simp only [next, duty, if_true, sadd_eq_write, presence_write_online,
      mem_insert_self, decide_true]
    exact .announces
  | placing =>
    simp only [next, duty, sadd_eq_write, presence_write_region]
    exact .rests

theorem DeleteSession.moves (call : DeleteSession) (progress : DeleteProgress) :
    Moves ((delete call progress).duty call.user.id) (redis.presence call.user.id)
      ((delete call (call.next progress redis).1).duty call.user.id)
      ((call.next progress redis).2.presence call.user.id) := by
  cases progress with
  | removing =>
    simp only [next, srem_eq_write, presence_write_self]
    split <;>
    · simp only [duty, if_true]
      exact .removes
  | leaving =>
    simp only [next, duty, if_true, srem_eq_write, presence_write_region]
    exact .rests
  | counting =>
    simp only [next, Redis.scard, Redis.presence]
    by_cases empty : redis.sets call.user.id = ∅
    · simp only [empty, duty, card_empty, BEq.rfl, if_true]
      exact .findsNone
    · have some : ((redis.sets call.user.id).card == 0) = false := by simp [empty]
      simp only [some, duty, if_true]
      exact .findsSome (nonempty_iff_ne_empty.mpr empty)
  | retiring =>
    simp only [next, duty, if_true, srem_eq_write, presence_write_online,
      notMem_erase, decide_false]
    exact .retires
  | finished => exact .rests

theorem PresenceCall.moves (call : PresenceCall) :
    Moves (call.duty user.id) (redis.presence user.id) ((call.next redis).1.duty user.id)
      ((call.next redis).2.presence user.id) := by
  cases call with
  | create call progress =>
    by_cases same : call.user.id = user.id
    · obtain rfl := PresenceUser.ext same
      exact call.moves progress
    · show Moves _ _ ((create call (call.next progress redis).1).duty user.id)
        ((call.next progress redis).2.presence user.id)
      rw [call.duty_of_ne _ same, call.duty_of_ne _ same, call.presence_next_of_ne progress same]
      exact .rests
  | delete call progress =>
    by_cases same : call.user.id = user.id
    · obtain rfl := PresenceUser.ext same
      exact call.moves progress
    · show Moves _ _ ((delete call (call.next progress redis).1).duty user.id)
        ((call.next progress redis).2.presence user.id)
      rw [call.duty_of_ne _ same, call.duty_of_ne _ same, call.presence_next_of_ne progress same]
      exact .rests

end Refinement

/-! ## All calls together -/

namespace PresenceCall

def IsBegun : PresenceCall → Prop
  | .create call progress => progress = call.begin
  | .delete call progress => progress = call.begin

def isFinished : PresenceCall → Bool
  | .create _ (.finished _ _) | .delete _ (.finished _) => true
  | _ => false

variable {call : PresenceCall} {userId : String}

theorem IsBegun.duty (begun : call.IsBegun) :
    (call.duty userId).announces = false ∧ (call.duty userId).departs = false := by
  cases call with
  | create call progress =>
    obtain rfl : progress = call.begin := begun
    rw [CreateSession.begin]
    split <;> exact ⟨rfl, rfl⟩
  | delete call progress =>
    obtain rfl : progress = call.begin := begun
    rw [DeleteSession.begin]
    split
    · rw [duty]
      split <;> exact ⟨rfl, rfl⟩
    · exact ⟨rfl, rfl⟩

theorem duty_of_isFinished (finished : call.isFinished) : call.duty userId = .none := by
  cases call with
  | create call progress | delete call progress =>
    cases progress with
    | finished => rfl
    | _ => contradiction

theorem next_eq (redis : Redis) : ∃ sets, (call.next redis).2 = { redis with sets } := by
  cases call with
  | create call progress | delete call progress => cases progress <;> exact ⟨_, rfl⟩

end PresenceCall

def PresencePool.duties {ι : Type} (pool : PresencePool ι) : ι → Duty :=
  fun i => (pool.calls i).duty userId

/-- The calls keep apart what they do to the user. -/
def Apart {ι : Type} (pool : PresencePool ι) : ι → Prop :=
  KeepsApart (PresencePool.duties userId pool)

instance decidableApart (userId : String) {ι : Type} [Fintype ι] (pool : PresencePool ι) (i : ι) :
    Decidable (Apart userId pool i) :=
  decidableKeepsApart _ i

/-- The user is listed as online exactly when they have a session. -/
def Redis.ListsPresent (redis : Redis) : Prop :=
  userId ∈ redis.sets onlineSet ↔ (redis.sets userId).Nonempty

/-- No value of another kind than a set has the key. -/
structure Redis.OnlySet (key : String) (redis : Redis) : Prop where
  counter : redis.counters key = 0
  list : redis.lists key = []
  number : redis.numbers key = none

section Runs

variable {ι : Type} {user : PresenceUser} {pool start : PresencePool ι}

theorem Redis.OnlySet.present (only : redis.OnlySet user.id) :
    redis.present user.id = decide (redis.sets user.id).Nonempty := by
  simp [Redis.present, only.counter, only.list, only.number]

theorem Redis.OnlySet.next (only : redis.OnlySet user.id) (call : PresenceCall) :
    (call.next redis).2.OnlySet user.id := by
  obtain ⟨sets, written⟩ := call.next_eq redis
  rw [written]
  exact ⟨only.counter, only.list, only.number⟩

/-- The duties of the calls account for what Redis holds of the user. -/
structure PresencePool.Tracks (userId : String) (pool : PresencePool ι) : Prop where
  tracked : Tracked (PresencePool.duties userId pool) (pool.store.presence userId)
  only : pool.store.OnlySet userId

open PresencePool

theorem tracked_of_begun (begun : ∀ i, (pool.calls i).IsBegun)
    (lists : pool.store.ListsPresent user.id) :
    Tracked (duties user.id pool) (pool.store.presence user.id) where
  listed listed := .inl (lists.mp (of_decide_eq_true listed))
  present nonempty := .inl (decide_eq_true (lists.mpr nonempty))
  retiring := by
    rintro ⟨i, retiring⟩
    have departs : (duties user.id pool i).departs = false := (begun i).duty.2
    rw [retiring] at departs
    contradiction
  announcing i session announcing := by
    have announces : (duties user.id pool i).announces = false := (begun i).duty.1
    rw [announcing] at announces
    contradiction

/-- Without duties the list and the sessions agree. -/
theorem PresencePool.Tracks.listsPresent (tracks : Tracks user.id pool)
    (finished : ∀ i, (pool.calls i).isFinished) : pool.store.ListsPresent user.id := by
  have done (i) : duties user.id pool i = .none := duty_of_isFinished (finished i)
  constructor
  · intro listed
    refine (tracks.tracked.listed (decide_eq_true listed)).resolve_right ?_
    rintro ⟨i, departs⟩
    rw [done i] at departs
    contradiction
  · intro nonempty
    refine of_decide_eq_true ((tracks.tracked.present nonempty).resolve_right ?_)
    rintro ⟨i, announces⟩
    rw [done i] at announces
    contradiction

/-- Both ways of asking agree about a user who is listed exactly when they have
a session. -/
theorem mem_filterOnline_iff {connected : Bool} {userIds : List String} (asked : user.id ∈ userIds)
    (only : redis.OnlySet user.id) (lists : redis.ListsPresent user.id) :
    user.id ∈ filterOnline connected userIds redis ↔ isOnline connected user.id redis := by
  have some : userIds.isEmpty = false := by
    rw [List.isEmpty_eq_false_iff]
    exact List.ne_nil_of_mem asked
  rw [filterOnline, isOnline, only.present]
  cases connected with
  | false => simp [some]
  | true => simpa [some, asked, Redis.smembers, ListsPresent] using lists

variable [DecidableEq ι]

theorem PresencePool.Tracks.step {i : ι} (tracks : Tracks user.id pool)
    (apart : Apart user.id pool i) : Tracks user.id (pool.step next i) where
  tracked := by
    show Tracked (fun j => ((pool.step next i).calls j).duty user.id) _
    rw [map_calls_step]
    exact Moves.tracked (moves (pool.calls i)) tracks.tracked apart
  only := tracks.only.next (pool.calls i)

/-- Suppose that the user is listed as online exactly when they have a session,
and calls begin and end sessions in any order that keeps apart what they do to
the user. When all calls have finished, the user is again listed exactly when
they have a session. -/
theorem presence_consistent (begun : ∀ i, (start.calls i).IsBegun)
    (only : start.store.OnlySet user.id) (lists : start.store.ListsPresent user.id)
    (reached : Pool.Reaches PresenceCall.next (Apart user.id) start pool)
    (finished : ∀ i, (pool.calls i).isFinished) :
    (user.id ∈ pool.store.sets onlineSet ↔ (pool.store.sets user.id).Nonempty) ∧
      ∀ connected userIds, user.id ∈ userIds →
        (user.id ∈ filterOnline connected userIds pool.store ↔
          isOnline connected user.id pool.store) := by
  have tracks : Tracks user.id pool :=
    reached.invariant ⟨tracked_of_begun begun lists, only⟩ fun _ _ => .step
  have agree := tracks.listsPresent finished
  exact ⟨agree, fun _ _ asked => mem_filterOnline_iff asked tracks.only agree⟩

end Runs

def aliceUser : PresenceUser where
  id := "01ALICE"
  notOnline := by decide +kernel
  notRegion := ne_regionKey (by decide +kernel)

def reconnecting : PresencePool Bool where
  calls
    | false => .delete { user := aliceUser, sessionId := 2, regionId := 0 } .removing
    | true => .create { user := aliceUser, flags := 0, random := 4, regionId := 0 } .counting
  store := {
    sets := update (update (fun _ => ∅) onlineSet {"01ALICE"}) "01ALICE" {"2"} }

theorem reconnecting_begun (i : Bool) : (reconnecting.calls i).IsBegun := by
  cases i <;> rfl

theorem reconnecting_listsPresent : reconnecting.store.ListsPresent aliceUser.id := by
  show _ ↔ _
  decide +kernel

/-- The new session begins before the call that ends the old one looks for
others. -/
def reconnected : PresencePool Bool :=
  reconnecting.run PresenceCall.next [false, true, true, false, true, false, true]

theorem presence_consistent_sample :
    (aliceUser.id ∈ reconnected.store.sets onlineSet ↔
        (reconnected.store.sets aliceUser.id).Nonempty) ∧
      reconnected.store.sets aliceUser.id = {"4"} := by
  have reached : Pool.Reaches next (Apart aliceUser.id) reconnecting reconnected :=
    reaches_run (by decide +kernel)
  have finished : ∀ i, (reconnected.calls i).isFinished := by decide +kernel
  refine ⟨?_, by decide +kernel⟩
  exact (presence_consistent reconnecting_begun ⟨rfl, rfl, rfl⟩ reconnecting_listsPresent reached
    finished).1

/-- The old session has ended and its call has found no other session. Before it
removes the user from the list, the new session begins. -/
theorem reconnected_user_unlisted :
    ∃ pool, (∀ i, (reconnecting.calls i).IsBegun) ∧ reconnecting.store.OnlySet aliceUser.id ∧
      reconnecting.store.ListsPresent aliceUser.id ∧
      Pool.Reaches PresenceCall.next (fun _ _ => True) reconnecting pool ∧
      (∀ i, (pool.calls i).isFinished) ∧ (pool.store.sets aliceUser.id).Nonempty ∧
      aliceUser.id ∉ pool.store.sets onlineSet ∧ isOnline true aliceUser.id pool.store ∧
      aliceUser.id ∉ filterOnline true [aliceUser.id] pool.store := by
  refine ⟨reconnecting.run next [false, false, false, true, true, true, true, false],
    reconnecting_begun, ⟨rfl, rfl, rfl⟩, reconnecting_listsPresent,
    reaches_run (admits_any _), ?_⟩
  decide +kernel

end Company
