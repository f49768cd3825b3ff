import CompanyBackend.Bonfire.Listener
import CompanyBackend.Library.Recency
import Mathlib.Data.Finset.Card

/-!
# The active servers of a connection

A client names the servers that it looks at. A cache holds the latest five of them for some time,
and every turn of the listener subscribes to the updates of what the cache reports as valid and
unsubscribes from what it reports as expired.

The cache forgets more than it reports: a key that a newer one displaces goes silently, and so
does a key that expires before the next message. Its topic stays subscribed.
-/

namespace Company

open Request List

/-- A connection and the servers that its client looks at. -/
structure ActiveSession where
  state : State
  active : LruCache String 5

/-- What the cache reports when some of its keys have expired. -/
def reportServers (lapsed : String → Bool) (keys : List String) : List ActiveServer :=
  keys.map fun id => if lapsed id then .expired id else .valid id

/-- A message of the client or a turn of the listener, with the keys that have
expired by then. -/
inductive SessionMove where
  | subscribe (serverId : String) (lapsed : String → Bool)
  | listen (lapsed : String → Bool)

/-- A turn is caused by the signal that the active servers have changed. -/
def SessionMove.step : SessionMove → Request ActiveSession Failure Unit
  | subscribe serverId lapsed => write fun session =>
    .ok { session with active := (session.active.discard lapsed).use serverId }
  | listen lapsed => fun session =>
    let heard :=
      Company.listen { servers := reportServers lapsed session.active.keys } session.state
    (heard.1,
      { state := heard.2
        active :=
          if session.state.cache.isBot then session.active else session.active.discard lapsed })

/-- No topic outlives its place in the cache: a message finds no server expired
whose topic is subscribed, and displaces none. -/
def SessionMove.Retains (session : ActiveSession) : SessionMove → Prop
  | subscribe serverId lapsed =>
    (∀ id ∈ session.active.keys, lapsed id → updateTopic id ∉ session.state.subscribed) ∧
      (serverId ∈ (session.active.discard lapsed).keys ∨
        (session.active.discard lapsed).keys.length < 5)
  | listen _ => True

instance (session : ActiveSession) : (move : SessionMove) → Decidable (move.Retains session)
  | .subscribe _ _ => inferInstanceAs (Decidable (_ ∧ _))
  | .listen _ => inferInstanceAs (Decidable True)

theorem updateTopic_inj {id other : String} : updateTopic id = updateTopic other ↔ id = other :=
  String.append_left_inj "u"

/-- A person is connected, and every update topic belongs to one of the
servers. -/
structure State.Covered (servers : List String) (state : State) : Prop where
  person : state.cache.isBot = false
  accounted : state.Accounted
  updates : ∀ id, updateTopic id ∈ state.subscribed → id ∈ servers

section Topics

variable {servers servers' keys : List String} {lapsed : String → Bool} {state state' : State}
variable {id : String}

theorem State.Covered.resubscribe {topics : Finset String} (covered : state.Covered servers)
    (changed : state.Resubscribes state' topics)
    (updates : ∀ id, updateTopic id ∈ topics → id ∈ servers') : state'.Covered servers' where
  person := by rw [changed.cache]; exact covered.person
  accounted := changed.accounted covered.accounted
  updates := by rwa [changed.subscribed]

/-- The topics of the servers that have expired go, those of the others come. -/
theorem reportServers_covered (covered : state.Covered (servers ++ keys)) :
    Outcome (forEach applyActiveServer (reportServers lapsed keys)) state fun r state' =>
      r = .ok () →
      state'.Covered (servers ++ keys.filter fun id => !lapsed id) := by
  induction keys generalizing servers state with
  | nil => exact fun _ => covered
  | cons id keys ih =>
    rw [reportServers, map_cons, forEach]
    cases gone : lapsed id with
    | false =>
      rw [filter_cons_of_pos (by rw [gone]; rfl), append_cons]
      rw [append_cons] at covered
      refine ih (covered.resubscribe (state.insert_resubscribes (updateTopic id)) ?_)
      intro other present
      rcases Finset.mem_insert.mp present with same | old
      · simp [updateTopic_inj.mp same]
      · exact covered.updates other old
    | true =>
      rw [filter_cons_of_neg (by rw [gone]; simp)]
      apply Outcome.write_bind
      · intro state₁ removed
        refine ih (covered.resubscribe (State.resubscribes_of_remove removed) ?_)
        intro other present
        obtain ⟨ne, old⟩ := Finset.mem_erase.mp present
        have different : other ≠ id := fun same => ne (same ▸ rfl)
        simpa [different] using covered.updates other old
      · rintro e _ ⟨⟩

/-- A turn leaves the topics of the servers that have not expired. -/
theorem listen_covered (covered : state.Covered keys) :
    Outcome (listen { servers := reportServers lapsed keys }) state fun r state' => r = .ok () →
      state'.Covered (keys.filter fun id => !lapsed id) := by
  rw [listen]
  apply Outcome.bind (R := fun r state' => ∀ pending, r = .ok pending →
    state'.Covered (keys.filter fun id => !lapsed id))
  · rw [applyState, applyActiveServers]
    apply Outcome.bind (R := fun r state' => r = .ok () →
      state'.Covered (keys.filter fun id => !lapsed id))
    · apply Outcome.askCache_bind
      rw [covered.person]
      exact @reportServers_covered [] keys lapsed state covered
    · intro _ state₁ reached
      obtain ⟨person, accounted, updates⟩ := reached rfl
      rintro pending ⟨⟩
      refine ⟨person, by rintro _ _ ⟨⟩, ?_⟩
      intro id present
      exact updates id (mem_of_mem_flushed accounted present)
    · rintro e state₁ _ _ ⟨⟩
  · intro pending state₁ reached
    exact fun _ => reached pending rfl
  · rintro e state₁ _ ⟨⟩

end Topics

section Bound

variable {start session session' final : ActiveSession} {move : SessionMove}
variable {moves : List SessionMove}

/-- Every update topic belongs to a server that the cache holds. -/
def ActiveSession.Covered (session : ActiveSession) : Prop :=
  session.state.Covered session.active.keys

theorem ActiveSession.Covered.step (covered : session.Covered) (retains : move.Retains session)
    (ran : move.step session = (.ok (), session')) : session'.Covered := by
  cases move with
  | subscribe serverId lapsed =>
    cases ran
    refine ⟨covered.person, covered.accounted, ?_⟩
    intro id present
    have held := covered.updates id present
    refine LruCache.mem_use_of_fits retains.2 (mem_filter.mpr ⟨held, ?_⟩)
    cases gone : lapsed id with
    | false => rfl
    | true => exact absurd present (retains.1 id held gone)
  | listen lapsed =>
    obtain ⟨heard, reached⟩ := Prod.ext_iff.mp ran
    have active : session'.active = session.active.discard lapsed :=
      (congrArg ActiveSession.active reached.symm).trans (if_neg (by simp [covered.person]))
    rw [Covered, active, ← congrArg ActiveSession.state reached]
    exact listen_covered covered heard

/-- The connection of a person is subscribed to the updates of at most five
servers, after any run in which no topic outlives the place of its server in the
cache. -/
theorem updateTopics_atMostFive (first : start.state.Covered [])
    (retains : Guarded SessionMove.step (fun session move => move.Retains session) start moves)
    (ran : forEach SessionMove.step moves start = (.ok (), final)) (ids : Finset String)
    (subscribed : ∀ id ∈ ids, updateTopic id ∈ final.state.subscribed) : ids.card ≤ 5 := by
  have begun : start.Covered :=
    { first with updates := fun id present => nomatch first.updates id present }
  have covered : final.Covered := by
    refine (invariant_of_run ?_ begun retains).elim ran rfl
    intro session move session' covered retains ran
    exact covered.step retains ran
  have listed : ids ⊆ final.active.keys.toFinset := by
    intro id member
    exact mem_toFinset.mpr (covered.updates id (subscribed id member))
  exact (Finset.card_le_card listed).trans ((toFinset_card_le _).trans final.active.bounded)

end Bound

def freshSession : ActiveSession where
  state := State.fromUser { id := "alice" } "session"
  active := .empty

theorem freshSession_covered : freshSession.state.Covered [] := by
  refine ⟨rfl, by rintro _ _ ⟨⟩, ?_⟩
  intro id present
  have ends : ∀ own ∈ freshSession.state.subscribed, own.toList.getLast? ≠ some 'u' := by decide
  refine absurd ?_ (ends _ present)
  rw [updateTopic, String.toList_append]
  exact List.getLast?_concat

/-- The client looks at a server, and the listener hears of it. -/
def lookAt (id : String) : List SessionMove :=
  [.subscribe id fun _ => false, .listen fun _ => false]

/-- The client looks at five servers and at the first of them again. The
listener finds the second one expired before the client looks at a sixth. -/
def lookAround : List SessionMove :=
  ["a", "b", "c", "d"].map (.subscribe · fun _ => false) ++ lookAt "e" ++
    .subscribe "a" (fun _ => false) :: .listen (· == "b") :: lookAt "f"

/-- The topic of the expired server has made room for the sixth. -/
theorem updateTopics_atMostFive_reached :
    (∀ id ∈ ({"a", "c", "d", "e", "f"} : Finset String), updateTopic id ∈
        (forEach SessionMove.step lookAround freshSession).2.state.subscribed) ∧
      ({"a", "c", "d", "e", "f"} : Finset String).card ≤ 5 := by
  have subscribed : ∀ id ∈ ({"a", "c", "d", "e", "f"} : Finset String), updateTopic id ∈
      (forEach SessionMove.step lookAround freshSession).2.state.subscribed := by decide +kernel
  have finished : (forEach SessionMove.step lookAround freshSession).1 = .ok () := by decide +kernel
  refine ⟨subscribed, ?_⟩
  exact updateTopics_atMostFive freshSession_covered (by decide +kernel)
    (Prod.ext finished rfl) _ subscribed

/-- Looking at six servers in turn leaves six topics. The topic of the server
that is displaced is not unsubscribed from. -/
theorem updateTopics_six :
    (forEach SessionMove.step (["a", "b", "c", "d", "e", "f"].flatMap lookAt) freshSession).1.isOk ∧
      ∀ id ∈ ["a", "b", "c", "d", "e", "f"], updateTopic id ∈ (forEach SessionMove.step
        (["a", "b", "c", "d", "e", "f"].flatMap lookAt) freshSession).2.state.subscribed := by
  decide +kernel

end Company
