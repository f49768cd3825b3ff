import Mathlib.Data.List.Induction
import CompanyBackend.Library.HashMap

/-!
# Session tokens of the signaling server

A client that has authenticated over HTTP is given a session token, with which it may open
one WebSocket within the next minute. `SessionStore` keeps the tokens. It reads a monotone
clock: once for the token that is inserted or consumed, and once for every entry that an
eviction looks at. The readings are inputs of the calls here.

A history is a list of calls on the empty store. What a token in the store says is traced
back to the call that inserted it, and a token that was consumed is marked as used for as
long as it stays in the store. Once it is evicted it does not come back, since no token is
inserted twice.
-/

namespace Company

open HashMap List

def maxSessions : Nat := 1000

def sessionTtlSecs : Nat := 60

/-- A reading of the monotone clock, in nanoseconds. -/
abbrev Instant := Nat

def elapsedSecs (since now : Instant) : Nat := (now - since) / 1000000000

structure SessionEntry where
  peerId : String
  createdAt : Instant
  used : Bool
deriving DecidableEq

structure SessionStore where
  tokens : HashMap String SessionEntry := ∅

namespace SessionStore

/-- Remove the entries that are too old. The clock is read again for every
entry. -/
def evictExpired (clock : String → Instant) (store : SessionStore) : SessionStore :=
  { tokens := store.tokens.retain fun token entry =>
      elapsedSecs entry.createdAt (clock token) < sessionTtlSecs }

/-- Insert a token after an eviction. The answer is false if there is no room
for it. -/
def insert (token peerId : String) (clock : String → Instant) (now : Instant)
    (store : SessionStore) : Bool × SessionStore :=
  let evicted := store.evictExpired clock
  if maxSessions ≤ evicted.tokens.size then (false, evicted)
  else (true, { tokens := evicted.tokens.put token ⟨peerId, now, false⟩ })

/-- Consume a token: the answer is its peer, if it is there, not used and not
expired, and the token is marked as used at once. -/
def consume (token : String) (now : Instant) (store : SessionStore) :
    Option String × SessionStore :=
  match store.tokens.lookup token with
  | none => (none, store)
  | some entry =>
    if entry.used then (none, store)
    else if sessionTtlSecs ≤ elapsedSecs entry.createdAt now then (none, store)
    else
      (some entry.peerId,
        { tokens := store.tokens.modify token fun entry => { entry with used := true } })

end SessionStore

inductive SessionCall where
  | insert (token peerId : String) (clock : String → Instant) (now : Instant)
  | consume (token : String) (now : Instant)
  | evictExpired (clock : String → Instant)

namespace SessionCall

def inserted : SessionCall → Option String
  | insert token _ _ _ => some token
  | consume _ _ => none
  | evictExpired _ => none

def now : SessionCall → Option Instant
  | insert _ _ _ now => some now
  | consume _ now => some now
  | evictExpired _ => none

end SessionCall

namespace SessionStore

variable {store : SessionStore} {call : SessionCall} {calls : List SessionCall}
variable {token peerId : String} {entry : SessionEntry}

def apply (store : SessionStore) : SessionCall → SessionStore
  | .insert token peerId clock now => (store.insert token peerId clock now).2
  | .consume token now => (store.consume token now).2
  | .evictExpired clock => store.evictExpired clock

def run (calls : List SessionCall) : SessionStore := calls.foldl apply {}

theorem run_concat (calls : List SessionCall) (call : SessionCall) :
    run (calls ++ [call]) = (run calls).apply call :=
  foldl_append

def Inserted (calls : List SessionCall) (token peerId : String) (created : Instant) : Prop :=
  ∃ before clock after, calls = before ++ .insert token peerId clock created :: after ∧
    ((run before).insert token peerId clock created).1 = true

def Consumed (calls : List SessionCall) (token : String) : Prop :=
  ∃ before now after, calls = before ++ .consume token now :: after ∧
    ((run before).consume token now).1.isSome

section

variable {created : Instant} (inserted : Inserted calls token peerId created)

include inserted

theorem Inserted.concat (call : SessionCall) : Inserted (calls ++ [call]) token peerId created := by
  obtain ⟨before, clock, after, rfl, accepted⟩ := inserted
  exact ⟨before, clock, after ++ [call], by simp, accepted⟩

theorem Inserted.mem : token ∈ calls.filterMap SessionCall.inserted := by
  obtain ⟨before, clock, after, rfl, _⟩ := inserted
  exact mem_filterMap.mpr ⟨_, mem_append_right _ mem_cons_self, rfl⟩

end

/-- A token is consumed by a longer history in its last call or before it. -/
theorem Consumed.of_concat (consumed : Consumed (calls ++ [call]) token) :
    Consumed calls token ∨
      ∃ now, call = .consume token now ∧ ((run calls).consume token now).1.isSome := by
  obtain ⟨before, now, after, split, answered⟩ := consumed
  induction after using reverseRecOn with
  | nil =>
    obtain ⟨rfl, last⟩ := append_inj' split rfl
    exact .inr ⟨now, singleton_inj.mp last, answered⟩
  | append_singleton after last _ =>
    rw [← cons_append, ← append_assoc] at split
    obtain ⟨rfl, _⟩ := append_inj' split rfl
    exact .inl ⟨before, now, after, rfl, answered⟩

/-- Either nothing happens, or a token that is neither used nor expired is
marked. -/
theorem consume_cases (store : SessionStore) (token : String) (now : Instant) :
    store.consume token now = (none, store) ∨
      ∃ entry, store.tokens.lookup token = some entry ∧ entry.used = false ∧
        elapsedSecs entry.createdAt now < sessionTtlSecs ∧
        store.consume token now = (some entry.peerId,
          { tokens := store.tokens.modify token fun entry => { entry with used := true } }) := by
  unfold consume
  cases found : store.tokens.lookup token with
  | none => exact .inl rfl
  | some entry =>
    by_cases used : entry.used
    · exact .inl (if_pos used)
    · by_cases expired : sessionTtlSecs ≤ elapsedSecs entry.createdAt now
      · left
        dsimp only
        rw [if_neg used, if_pos expired]
      · right
        refine ⟨entry, rfl, by simpa using used, Nat.lt_of_not_le expired, ?_⟩
        dsimp only
        rw [if_neg used, if_neg expired]

variable {now : Instant}

theorem of_consume_eq_some (answered : (store.consume token now).1 = some peerId) :
    ∃ entry, store.tokens.lookup token = some entry ∧ entry.used = false ∧
      elapsedSecs entry.createdAt now < sessionTtlSecs ∧ entry.peerId = peerId := by
  obtain silent | ⟨entry, found, unused, young, marked⟩ := consume_cases store token now
  · rw [silent] at answered
    cases answered
  · rw [marked] at answered
    exact ⟨entry, found, unused, young, Option.some.inj answered⟩

/-- Consuming a token changes nothing but its mark, and sets that if it
answers. -/
theorem lookup_consume {other : String}
    (stored : (store.consume token now).2.tokens.lookup other = some entry) :
    ∃ old, store.tokens.lookup other = some old ∧ old.peerId = entry.peerId ∧
      old.createdAt = entry.createdAt ∧
      (entry.used = false → old.used = false ∧
        (other = token → (store.consume token now).1 = none)) := by
  obtain silent | ⟨current, found, _, _, marked⟩ := consume_cases store token now
  · rw [silent] at stored ⊢
    exact ⟨entry, stored, rfl, rfl, fun unused => ⟨unused, fun _ => rfl⟩⟩
  · rw [marked] at stored
    by_cases same : other = token
    · subst same
      rw [lookup_modify, found] at stored
      cases stored
      exact ⟨current, found, rfl, rfl, by simp⟩
    · rw [lookup_modify_ne _ same] at stored
      exact ⟨entry, stored, rfl, rfl, fun unused => ⟨unused, fun own => absurd own same⟩⟩

theorem lookup_evictExpired {clock : String → Instant}
    (stored : (store.evictExpired clock).tokens.lookup token = some entry) :
    store.tokens.lookup token = some entry := by
  rw [evictExpired, lookup_retain, Option.filter_eq_some_iff] at stored
  exact stored.1

/-- An entry comes from the call, or it was there before, with the mark that the
call leaves. -/
theorem lookup_apply (stored : (store.apply call).tokens.lookup token = some entry) :
    (∃ clock, call = .insert token entry.peerId clock entry.createdAt ∧
        (store.insert token entry.peerId clock entry.createdAt).1) ∨
      ∃ old, store.tokens.lookup token = some old ∧ old.peerId = entry.peerId ∧
        old.createdAt = entry.createdAt ∧
        (entry.used = false → old.used = false ∧
          ∀ now, call = .consume token now → (store.consume token now).1 = none) := by
  cases call with
  | insert new newPeer clock now =>
    by_cases written : token = new ∧ ¬ maxSessions ≤ (store.evictExpired clock).tokens.size
    · obtain ⟨rfl, room⟩ := written
      simp only [apply, insert, if_neg room, lookup_put] at stored
      cases stored
      exact .inl ⟨clock, rfl, by simp only [insert, if_neg room]⟩
    · have kept : (store.evictExpired clock).tokens.lookup token = some entry := by
        by_cases full : maxSessions ≤ (store.evictExpired clock).tokens.size
        · simpa only [apply, insert, if_pos full] using stored
        · have other : token ≠ new := fun same => written ⟨same, full⟩
          simpa only [apply, insert, if_neg full, lookup_put_ne _ other] using stored
      refine .inr ⟨entry, lookup_evictExpired kept, rfl, rfl, ?_⟩
      intro unused
      exact ⟨unused, fun _ same => nomatch same⟩
  | consume consumed now =>
    obtain ⟨old, found, samePeer, sameTime, mark⟩ := lookup_consume stored
    refine .inr ⟨old, found, samePeer, sameTime, ?_⟩
    intro unused
    refine ⟨(mark unused).1, ?_⟩
    rintro _ ⟨⟩
    exact (mark unused).2 rfl
  | evictExpired clock =>
    refine .inr ⟨entry, lookup_evictExpired stored, rfl, rfl, ?_⟩
    intro unused
    exact ⟨unused, fun _ same => nomatch same⟩

/-- What the store says about the history that led to it. -/
structure Sound (calls : List SessionCall) : Prop where
  inserted : ∀ token entry, (run calls).tokens.lookup token = some entry →
    Inserted calls token entry.peerId entry.createdAt
  unused : ∀ token entry, (run calls).tokens.lookup token = some entry → entry.used = false →
    ¬ Consumed calls token
  known : ∀ token, Consumed calls token → token ∈ calls.filterMap SessionCall.inserted

theorem sound_nil : Sound [] := by
  refine ⟨?_, ?_, ?_⟩
  · intro token entry stored
    cases stored
  · intro token entry stored
    cases stored
  · rintro token ⟨before, now, after, split, _⟩
    simp at split

theorem Sound.concat (sound : Sound calls)
    (distinct : ((calls ++ [call]).filterMap SessionCall.inserted).Nodup) :
    Sound (calls ++ [call]) := by
  refine ⟨?_, ?_, ?_⟩
  · intro token entry stored
    rw [run_concat] at stored
    obtain ⟨clock, rfl, accepted⟩ | ⟨old, found, samePeer, sameTime, _⟩ := lookup_apply stored
    · exact ⟨calls, clock, [], rfl, accepted⟩
    · rw [← samePeer, ← sameTime]
      exact (sound.inserted token old found).concat call
  · intro token entry stored unused consumed
    rw [run_concat] at stored
    obtain ⟨clock, rfl, _⟩ | ⟨old, found, _, _, mark⟩ := lookup_apply stored
    · -- A token that is inserted now was not inserted before, so it was not consumed.
      obtain earlier | ⟨_, last, _⟩ := consumed.of_concat
      · rw [filterMap_append] at distinct
        exact disjoint_of_nodup_append distinct (sound.known token earlier)
          (mem_singleton_self token)
      · cases last
    · obtain ⟨unusedBefore, silent⟩ := mark unused
      obtain earlier | ⟨now, last, answered⟩ := consumed.of_concat
      · exact sound.unused token old found unusedBefore earlier
      · rw [silent now last] at answered
        cases answered
  · intro token consumed
    rw [filterMap_append]
    apply mem_append_left
    obtain earlier | ⟨now, _, answered⟩ := consumed.of_concat
    · exact sound.known token earlier
    · obtain ⟨peerId, answer⟩ := Option.isSome_iff_exists.mp answered
      obtain ⟨entry, found, _⟩ := of_consume_eq_some answer
      exact (sound.inserted token entry found).mem

theorem sound_run (distinct : (calls.filterMap SessionCall.inserted).Nodup) : Sound calls := by
  induction calls using reverseRecOn with
  | nil => exact sound_nil
  | append_singleton calls call ih =>
    have before : (calls.filterMap SessionCall.inserted).Nodup := by
      rw [filterMap_append] at distinct
      exact distinct.of_append_left
    exact (ih before).concat distinct

theorem size_apply_le (bounded : store.tokens.size ≤ maxSessions) (call : SessionCall) :
    (store.apply call).tokens.size ≤ maxSessions := by
  have evicted : ∀ clock, (store.evictExpired clock).tokens.size ≤ maxSessions := fun clock =>
    Nat.le_trans (size_retain_le ..) bounded
  cases call with
  | insert token peerId clock now =>
    by_cases full : maxSessions ≤ (store.evictExpired clock).tokens.size
    · simp only [apply, insert, if_pos full]
      exact evicted clock
    · simp only [apply, insert, if_neg full]
      have grown := size_put_le (store.evictExpired clock).tokens token ⟨peerId, now, false⟩
      omega
  | consume token now =>
    rw [apply]
    obtain silent | ⟨_, _, _, _, marked⟩ := consume_cases store token now
    · rwa [silent]
    · rwa [marked, size_modify]
  | evictExpired clock => exact evicted clock

theorem size_run_le (calls : List SessionCall) : (run calls).tokens.size ≤ maxSessions := by
  induction calls using reverseRecOn with
  | nil => exact Nat.zero_le _
  | append_singleton calls call ih =>
    rw [run_concat]
    exact size_apply_le ih call

/-- In every history of calls at times that do not decrease, with no token
inserted twice, a token that is consumed was inserted before with the peer that
is answered, less than a minute ago, and is not consumed again; and the store
never exceeds its limit. -/
theorem session_tokens_single_use (calls : List SessionCall)
    (clock : (calls.filterMap SessionCall.now).Pairwise (· ≤ ·))
    (distinct : (calls.filterMap SessionCall.inserted).Nodup) :
    (∀ before token now after peerId, calls = before ++ .consume token now :: after →
      ((run before).consume token now).1 = some peerId →
        (∃ created, Inserted before token peerId created ∧ created ≤ now ∧
          elapsedSecs created now < sessionTtlSecs) ∧
        ∀ middle later rest, after = middle ++ .consume token later :: rest →
          ((run (before ++ .consume token now :: middle)).consume token later).1 = none) ∧
    ∀ done, done <+: calls → (run done).tokens.size ≤ maxSessions := by
  refine ⟨?_, fun done _ => size_run_le done⟩
  rintro before token now after peerId rfl answered
  obtain ⟨entry, found, unused, young, rfl⟩ := of_consume_eq_some answered
  constructor
  · have earlier : (before.filterMap SessionCall.inserted).Nodup := by
      rw [filterMap_append] at distinct
      exact distinct.of_append_left
    have inserted := (sound_run earlier).inserted token entry found
    refine ⟨entry.createdAt, inserted, ?_, young⟩
    obtain ⟨early, readings, late, rfl, _⟩ := inserted
    rw [filterMap_append, pairwise_append] at clock
    apply clock.2.2
    · exact mem_filterMap.mpr ⟨_, mem_append_right _ mem_cons_self, rfl⟩
    · exact mem_filterMap.mpr ⟨_, mem_cons_self, rfl⟩
  · rintro middle later rest rfl
    have sound : Sound (before ++ .consume token now :: middle) := by
      apply sound_run
      rw [← cons_append, ← append_assoc, filterMap_append] at distinct
      exact distinct.of_append_left
    have consumed : Consumed (before ++ .consume token now :: middle) token :=
      ⟨before, now, middle, rfl, by rw [answered]; rfl⟩
    rw [Option.eq_none_iff_forall_ne_some]
    intro again answeredAgain
    obtain ⟨left, stillThere, stillUnused, _⟩ := of_consume_eq_some answeredAgain
    exact sound.unused token left stillThere stillUnused consumed

/-- A token that is presented twice in the last nanosecond of its minute. -/
def presentedTwice : List SessionCall :=
  [.insert "token" "peer" (fun _ => 0) 0, .consume "token" 59999999999,
    .consume "token" 59999999999]

theorem session_tokens_single_use_presented_twice :
    ((run (presentedTwice.take 1)).consume "token" 59999999999).1 = some "peer" ∧
      ((run (presentedTwice.take 2)).consume "token" 59999999999).1 = none := by
  have answered : ((run (presentedTwice.take 1)).consume "token" 59999999999).1 = some "peer" := by
    decide +kernel
  have history := (session_tokens_single_use presentedTwice (by decide) (by decide)).1
  exact ⟨answered, (history _ _ _ _ _ rfl answered).2 [] _ [] rfl⟩

end SessionStore

end Company
