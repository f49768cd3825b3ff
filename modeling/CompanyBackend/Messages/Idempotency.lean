import CompanyBackend.Library.Interleaving
import CompanyBackend.Library.Recency
import CompanyBackend.Library.Resumption
import CompanyBackend.Messages.Sending

/-!
# Idempotency keys

A request to send a message may carry a key in a header and a nonce in its data. Both are looked
up in one cache, which all users share: a key that is there is a duplicate, and a key that is not
is stored. The header is looked at when the request arrives. The nonce follows after checks that
have nothing to do with the cache, and in between other requests may use it.

Whether a key is a duplicate depends on nothing but the keys that were submitted before, whoever
submitted them and on whichever of the two ways.
-/

namespace Company

open Request LruCache Pool List

/-- The keys that were submitted last, accepted or not. -/
abbrev TokenCache := LruCache String 1000

structure IdempotencyKey where
  key : String
  deriving DecidableEq, Repr

namespace IdempotencyKey

/-- Looking up a key makes it the latest. -/
def lookUp (key : String) : Request TokenCache Error Bool := fun cache =>
  (.ok (cache.get key).1, (cache.get key).2)

def submit (key : String) : Request TokenCache Error Unit := do
  let used ← lookUp key
  ensure (!used) .duplicateNonce
  write fun cache => .ok (cache.put key)

/-- The nonce of a request takes the place of its key. -/
def consumeNonce (self : IdempotencyKey) : Option String → Request TokenCache Error IdempotencyKey
  | some nonce => do
    submit nonce
    return { key := nonce }
  | none => return self

/-- The key in the header of a request, or a new one. -/
def fromRequest (header : Option String) (ulid : String) :
    Request TokenCache Error IdempotencyKey :=
  match header with
  | some key => do
    ensure (decide (key.utf8ByteSize ≤ 64)) (.failedValidation "idempotency key too long")
    submit key
    return { key }
  | none => return { key := ulid }

theorem submit_run (key : String) (cache : TokenCache) :
    submit key cache =
      (if key ∈ cache.keys then .error .duplicateNonce else .ok (), cache.use key) := by
  by_cases held : key ∈ cache.keys
  · have found : lookUp key cache = (.ok true, cache.use key) := by
      simp [lookUp, held, get_snd_of_mem]
    rw [submit, bind_of_ok found, if_pos held]
    rfl
  · have absent : lookUp key cache = (.ok false, cache) := by
      simp [lookUp, LruCache.get, held]
    rw [submit, bind_of_ok absent, if_neg held, ← put_of_notMem held]
    rfl

end IdempotencyKey

open IdempotencyKey

variable {cache : TokenCache}

/-- The nonces of the store that messages are sent from are the keys of such a
cache. -/
theorem consumeNonce_agrees (backend : MessageBackend) (key : String) (nonce : Option String) :
    consumeNonce key nonce { backend with nonces := cache.keys } =
      (((IdempotencyKey.consumeNonce ⟨key⟩ nonce cache).1.map IdempotencyKey.key).mapError
          fun _ => .error .invalidOperation,
        { backend with nonces := (IdempotencyKey.consumeNonce ⟨key⟩ nonce cache).2.keys }) := by
  cases nonce with
  | none => rfl
  | some nonce =>
    have submitted := submit_run nonce cache
    have found : (attempt fun backend => .ok (backend.nonces.contains nonce) : SendTask Bool)
        { backend with nonces := cache.keys } =
          (.ok (decide (nonce ∈ cache.keys)), { backend with nonces := cache.keys }) := by
      simp [attempt]
    rw [IdempotencyKey.consumeNonce, consumeNonce, bind_of_ok found]
    by_cases held : nonce ∈ cache.keys
    · rw [if_pos held] at submitted
      rw [bind_of_error submitted, keys_use, decide_eq_true held]
      rfl
    · rw [if_neg held] at submitted
      rw [bind_of_ok submitted, decide_eq_false held]
      change _ = (_, { backend with nonces := (cache.use nonce).keys })
      rw [keys_use]
      rfl

/-- What the cache sees of a request to send a message. -/
structure MessageSubmission where
  user : String
  header : Option String := none
  /-- The key that is made for a request without a header. -/
  ulid : String := ""
  /-- The data is valid and the user may send it. -/
  proceeds : Bool := true
  nonce : Option String := none
  deriving DecidableEq, Repr

inductive Submission where
  | arriving (request : MessageSubmission)
  | passed (request : MessageSubmission) (key : IdempotencyKey)
  | accepted (key : IdempotencyKey)
  | duplicate
  | refused
  deriving DecidableEq, Repr

namespace Submission

def ofError : Error → Submission
  | .duplicateNonce => duplicate
  | _ => refused

def next : Submission → TokenCache → Submission × TokenCache
  | arriving request =>
    advance (fromRequest request.header request.ulid) (passed request) ofError
  | passed request key =>
    if request.proceeds then advance (key.consumeNonce request.nonce) accepted ofError
    else fun cache => (refused, cache)
  | ended => fun cache => (ended, cache)

def submits : Submission → Option String
  | arriving request => request.header.filter fun key => key.utf8ByteSize ≤ 64
  | passed request _ => if request.proceeds then request.nonce else none
  | _ => none

/-- The request is rejected because its key was submitted before. -/
def isDuplicate : Submission → Bool
  | duplicate => true
  | _ => false

/-- Where a request goes on whose key is not a duplicate. -/
def admitted (key : String) : Submission → Submission
  | arriving request => passed request ⟨key⟩
  | _ => accepted ⟨key⟩

variable {submission : Submission} {key : String}

theorem advance_submit (done : IdempotencyKey → Submission) :
    advance (IdempotencyKey.submit key >>= fun _ => pure ⟨key⟩) done ofError cache =
      (if key ∈ cache.keys then duplicate else done ⟨key⟩, cache.use key) := by
  have looked := submit_run key cache
  by_cases held : key ∈ cache.keys
  · rw [if_pos held] at looked ⊢
    exact advance_of_error (bind_of_error looked)
  · rw [if_neg held] at looked ⊢
    exact advance_of_ok (bind_of_ok looked)

theorem next_of_submits (submitted : submission.submits = some key) :
    submission.next cache =
      (if key ∈ cache.keys then duplicate else submission.admitted key, cache.use key) := by
  cases submission with
  | arriving request =>
    obtain ⟨given, short⟩ := Option.filter_eq_some_iff.mp submitted
    rw [next, given, fromRequest, short]
    exact advance_submit (passed request)
  | passed request other =>
    rw [submits] at submitted
    split at submitted
    · next proceeds =>
      rw [next, if_pos proceeds, submitted]
      exact advance_submit accepted
    · cases submitted
  | accepted _ | duplicate | refused => cases submitted

/-- A request that looks nothing up does not depend on the cache. -/
theorem next_of_silent (silent : submission.submits = none) (cache' : TokenCache) :
    submission.next cache = ((submission.next cache').1, cache) := by
  cases submission with
  | arriving request =>
    cases given : request.header with
    | none => rw [next, given]; rfl
    | some key =>
      have long : decide (key.utf8ByteSize ≤ 64) = false := by
        simpa [submits, given] using silent
      have refuses : ∀ cache : TokenCache,
          fromRequest (some key) request.ulid cache =
            (.error (.failedValidation "idempotency key too long"), cache) := by
        intro cache
        rw [fromRequest, long]
        rfl
      rw [next, given, advance_of_error (refuses cache), advance_of_error (refuses cache')]
  | passed request key =>
    rw [submits] at silent
    split at silent
    · next proceeds =>
      rw [next, if_pos proceeds, silent]
      rfl
    · next stops =>
      rw [next, if_neg stops]
  | accepted _ | duplicate | refused => rfl

theorem next_store (submission : Submission) (cache : TokenCache) :
    (submission.next cache).2 = submission.submits.toList.foldl LruCache.use cache := by
  cases submitted : submission.submits with
  | none => rw [next_of_silent submitted cache]; rfl
  | some key => rw [next_of_submits submitted]; rfl

theorem isDuplicate_next (submitted : submission.submits = some key) :
    (submission.next cache).1.isDuplicate = decide (key ∈ cache.keys) := by
  rw [next_of_submits submitted]
  by_cases held : key ∈ cache.keys
  · simp [held, isDuplicate]
  · cases submission <;> simp [held, isDuplicate, admitted]

end Submission

open Submission

/-! ## Interleavings -/

section Interleavings

variable {ι : Type} [DecidableEq ι]

abbrev Submissions (ι : Type) := Pool ι Submission TokenCache

open Submission

namespace Submissions

variable (pool : Submissions ι)

variable (schedule : List ι)

/-- The keys that are submitted when requests take their steps in this order. -/
def submitted : List String :=
  pool.trace next submits schedule

def after : Submissions ι := pool.run next schedule

/-- The last submission of the key is recent enough for the cache to hold it. -/
def Recalls (key : String) : Prop :=
  Remembered 1000 ((pool.submitted schedule).reverse ++ pool.store.keys) key

instance decidableRecalls (schedule : List ι) (key : String) :
    Decidable (pool.Recalls schedule key) :=
  inferInstanceAs (Decidable (Remembered ..))

/-- After these steps, the next step of a request submits the key and is not
rejected. -/
def Accepts (i : ι) (key : String) : Prop :=
  ((pool.after schedule).calls i).submits = some key ∧
    ((pool.after (schedule ++ [i])).calls i).isDuplicate = false

variable {pool} {schedule : List ι} {i : ι} {key : String}

theorem store_after : (pool.after schedule).store =
    (pool.submitted schedule).foldl LruCache.use pool.store :=
  store_run next_store schedule

/-- The cache holds the keys that are recalled. -/
theorem mem_keys_after : key ∈ (pool.after schedule).store.keys ↔ pool.Recalls schedule key := by
  rw [store_after, mem_keys_foldl_use_iff, Recalls]

theorem calls_after_concat :
    (pool.after (schedule ++ [i])).calls i =
      (((pool.after schedule).calls i).next (pool.after schedule).store).1 := by
  rw [after, run_concat, step_self]
  rfl

theorem after_append (first second : List ι) :
    pool.after (first ++ second) = (pool.after first).after second :=
  run_append first second

theorem store_after_concat (submits : ((pool.after schedule).calls i).submits = some key) :
    (pool.after (schedule ++ [i])).store = (pool.after schedule).store.use key := by
  rw [after_append]
  change (next _ _).2 = _
  rw [next_of_submits submits]

theorem accepts_iff : pool.Accepts schedule i key ↔
    ((pool.after schedule).calls i).submits = some key ∧ ¬ pool.Recalls schedule key := by
  refine and_congr_right ?_
  intro submitted
  rw [calls_after_concat, isDuplicate_next submitted, decide_eq_false_iff_not, mem_keys_after]

/-- A key that is accepted a second time has been displaced in between: a
thousand different other keys have been submitted since. -/
theorem replay_window (pool : Submissions ι) (before between : List ι) (i j : ι) (key : String)
    (first : pool.Accepts before i key) (again : pool.Accepts (before ++ i :: between) j key) :
    ∃ others : List String, others.Nodup ∧
      (∀ other ∈ others, other ∈ (pool.after (before ++ [i])).submitted between ∧ other ≠ key) ∧
      1000 ≤ others.length := by
  have unknown : key ∉ (pool.after (before ++ i :: between)).store.keys :=
    fun held => (accepts_iff.mp again).2 (mem_keys_after.mp held)
  rw [append_cons, after_append, store_after, store_after_concat first.1] at unknown
  exact exists_others_of_forgotten unknown

/-- The keys of 1001 requests are different, and then they come again. -/
def keyInTurn (n : Nat) : String := String.singleton (Char.ofNat (n % 1001 + 48))

def inTurn : Submissions Nat where
  calls n := .arriving { user := "alice", header := some (keyInTurn n) }
  store := .empty

theorem submits_inTurn (n : Nat) : (inTurn.calls n).submits = some (keyInTurn n) := by
  have short := Char.utf8Size_le_four (Char.ofNat (n % 1001 + 48))
  simp [submits, inTurn, keyInTurn]
  omega

theorem keyInTurn_inj {m n : Nat} : keyInTurn m = keyInTurn n ↔ m % 1001 = n % 1001 := by
  have code : ∀ n, (Char.ofNat (n % 1001 + 48)).toNat = n % 1001 + 48 := by
    intro n
    have small : n % 1001 + 48 < 0xd800 := by omega
    rw [Char.ofNat, dif_pos (Or.inl small)]
    rfl
  refine ⟨?_, fun same => by rw [keyInTurn, same, keyInTurn]⟩
  intro same
  have codes := congrArg Char.toNat (String.singleton_inj.mp same)
  rw [code, code] at codes
  omega

/-- Request 1001 comes when the key of the first one is forgotten. -/
theorem inTurn_accepts_again :
    inTurn.Accepts ([] ++ 0 :: range' 1 1000) 1001 (keyInTurn 0) := by
  have idle : (inTurn.after ([] ++ 0 :: range' 1 1000)).calls 1001 = inTurn.calls 1001 := by
    rw [after, run_calls_of_notMem (by simp)]
  have emitted : (inTurn.after [0]).submitted (range' 1 1000) =
      (range' 1 1000).map keyInTurn := by
    have unstarted : ∀ n ∈ range' 1 1000,
        ((inTurn.after [0]).calls n).submits = some (keyInTurn n) := by
      intro n listed
      have apart : n ∉ [0] := by simp at listed ⊢; omega
      rw [after, run_calls_of_notMem apart, submits_inTurn]
    rw [submitted, trace_of_nodup nodup_range', filterMap_congr unstarted, filterMap_eq_map']
  have different : ((range' 1 1000).map keyInTurn).Nodup := by
    refine Nodup.map_on ?_ nodup_range'
    intro m left n right same
    rw [keyInTurn_inj] at same
    simp at left right
    omega
  have apart : keyInTurn 0 ∉ (range' 1 1000).map keyInTurn := by
    intro listed
    obtain ⟨n, listed, same⟩ := mem_map.mp listed
    rw [keyInTurn_inj] at same
    simp at listed
    omega
  have repeats : keyInTurn 1001 = keyInTurn 0 := keyInTurn_inj.mpr rfl
  have stored : (inTurn.after ([] ++ [0])).store = inTurn.store.use (keyInTurn 0) :=
    @store_after_concat Nat _ inTurn [] 0 _ (submits_inTurn 0)
  refine accepts_iff.mpr ⟨by rw [idle, submits_inTurn, repeats], ?_⟩
  rw [← mem_keys_after, append_cons, after_append, store_after, stored]
  exact emitted ▸ forgotten_of_others different apart (by simp)

theorem replay_window_inTurn :
    inTurn.Accepts [] 0 (keyInTurn 0) ∧
    inTurn.Accepts ([] ++ 0 :: List.range' 1 1000) 1001 (keyInTurn 0) ∧
    ∃ others : List String, others.Nodup ∧
      (∀ other ∈ others,
        other ∈ (inTurn.after ([] ++ [0])).submitted (List.range' 1 1000) ∧ other ≠ keyInTurn 0) ∧
      1000 ≤ others.length := by
  have first : inTurn.Accepts [] 0 (keyInTurn 0) :=
    accepts_iff.mpr ⟨submits_inTurn 0, fun recalled => nomatch recalled.1⟩
  exact ⟨first, inTurn_accepts_again, replay_window _ _ _ _ _ _ first inTurn_accepts_again⟩

variable {own : ι → Prop} {other : Submissions ι}

/-- The requests of one user are equally far in both runs. -/
def Matches (own : ι → Prop) (pool other : Submissions ι) : Prop :=
  ∀ i, own i → pool.calls i = other.calls i

/-- They stay so as long as the caches give them the same answers. -/
theorem Matches.step (matched : Matches own pool other)
    (agree : own i → ∀ key, (pool.calls i).submits = some key →
      (key ∈ pool.store.keys ↔ key ∈ other.store.keys)) :
    Matches own (pool.step next i) (other.step next i) := by
  intro j mine
  by_cases same : j = i
  · subst same
    rw [step_self, step_self, ← matched j mine]
    cases submits : (pool.calls j).submits with
    | none => rw [next_of_silent submits other.store]
    | some key =>
      simp only [next_of_submits submits, agree mine key submits]
  · rw [Pool.step_ne same, Pool.step_ne same]
    exact matched j mine

theorem Matches.after (start : Matches own pool other) (agree : ∀ done i, done ++ [i] <+: schedule →
      Matches own (pool.after done) (other.after done) → own i →
        ∀ key, ((pool.after done).calls i).submits = some key →
          (pool.Recalls done key ↔ other.Recalls done key)) :
    ∀ done, done <+: schedule → Matches own (pool.after done) (other.after done) := by
  intro done
  induction done using reverseRecOn with
  | nil => exact fun _ => start
  | append_singleton done i ih =>
    intro ahead
    have matched := ih ((prefix_append done [i]).trans ahead)
    rw [after_append, after_append]
    refine matched.step ?_
    intro mine key submits
    rw [mem_keys_after, mem_keys_after]
    exact agree done i ahead matched mine key submits

end Submissions

open Submissions

/-- Requests that arrive, at a cache that other requests have used. -/
def Submissions.arriving (requests : ι → MessageSubmission) (cache : TokenCache) :
    Submissions ι where
  calls i := .arriving (requests i)
  store := cache

open Submissions

/-- Whether a request of one user is a duplicate is independent of what others
submit exactly as long as the keys of that user are recalled with them as
without. -/
theorem duplicates_independent_iff (own : String) (requests others : ι → MessageSubmission)
    (cache : TokenCache) (schedule : List ι)
    (same : ∀ i, (requests i).user = own → requests i = others i) :
    (∀ done, done <+: schedule → ∀ i, (requests i).user = own →
      (((Submissions.arriving requests cache).after done).calls i).isDuplicate =
        (((Submissions.arriving others cache).after done).calls i).isDuplicate) ↔
    ∀ done i, done ++ [i] <+: schedule → (requests i).user = own →
      ∀ key, (((Submissions.arriving requests cache).after done).calls i).submits = some key →
        ((Submissions.arriving requests cache).Recalls done key ↔
          (Submissions.arriving others cache).Recalls done key) := by
  let mine : ι → Prop := fun i => (requests i).user = own
  have start : Matches mine (arriving requests cache)
      (arriving others cache) := by
    intro i isMine
    exact congrArg Submission.arriving (same i isMine)
  constructor
  · intro agree
    -- The verdict on a key shows whether it was recalled.
    have recalled : ∀ done i, done ++ [i] <+: schedule →
        Matches mine ((arriving requests cache).after done)
          ((arriving others cache).after done) → mine i →
        ∀ key, (((arriving requests cache).after done).calls i).submits = some key →
          ((arriving requests cache).Recalls done key ↔
            (arriving others cache).Recalls done key) := by
      intro done i ahead matched isMine key submits
      have verdict := agree (done ++ [i]) ahead i isMine
      rw [calls_after_concat, calls_after_concat, isDuplicate_next submits, isDuplicate_next
        (matched i isMine ▸ submits), decide_eq_decide, mem_keys_after, mem_keys_after] at verdict
      exact verdict
    intro done i ahead isMine
    have before : done <+: schedule := (prefix_append done [i]).trans ahead
    exact recalled done i ahead (start.after recalled done before) isMine
  · intro agree done ahead i isMine
    have matched := start.after (fun done i ahead _ => agree done i ahead) done ahead
    rw [matched i isMine]

def nonceOfAlice (nonce : String) : Bool → MessageSubmission
  | true => { user := "bob", nonce := some "hello" }
  | false => { user := "alice", nonce := some nonce }

/-- Bob's first use of a nonce is rejected if alice has used it, and accepted if
not. -/
theorem duplicates_dependent :
    (∀ i, (nonceOfAlice "hello" i).user = "bob" → nonceOfAlice "hello" i = nonceOfAlice "hi" i) ∧
    (((Submissions.arriving (nonceOfAlice "hello") .empty).after
      [false, false, true, true]).calls true).isDuplicate ∧
    (((Submissions.arriving (nonceOfAlice "hi") .empty).after
      [false, false, true, true]).calls true).isDuplicate = false := by
  decide

theorem duplicates_independent_iff_hi :
    (∀ i, (nonceOfAlice "hi" i).user = "bob" → nonceOfAlice "hi" i = nonceOfAlice "ho" i) ∧
    ∀ done, done <+: [false, false, true, true] → ∀ i, (nonceOfAlice "hi" i).user = "bob" →
      (((Submissions.arriving (nonceOfAlice "hi") .empty).after done).calls i).isDuplicate =
        (((Submissions.arriving (nonceOfAlice "ho") .empty).after done).calls i).isDuplicate := by
  have same : ∀ i, (nonceOfAlice "hi" i).user = "bob" →
      nonceOfAlice "hi" i = nonceOfAlice "ho" i := by decide
  have recalled : ∀ done ∈ inits [false, false, true, true], ∀ i,
      ∀ key ∈ (((arriving (nonceOfAlice "hi") .empty).after done).calls i).submits,
        ((arriving (nonceOfAlice "hi") .empty).Recalls done key ↔
          (arriving (nonceOfAlice "ho") .empty).Recalls done key) := by
    decide
  refine ⟨same, (duplicates_independent_iff "bob" _ _ .empty _ same).mpr ?_⟩
  intro done i ahead _ key submits
  have before : done <+: [false, false, true, true] := (prefix_append done [i]).trans ahead
  exact recalled done (mem_inits _ _ |>.mpr before) i key submits

end Interleavings

end Company
