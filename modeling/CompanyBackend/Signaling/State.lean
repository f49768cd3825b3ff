import Mathlib.Data.List.Induction
import CompanyBackend.Library.HashMap

/-!
# The registry of the signaling server

The signaling server keeps two maps: the peers that are registered, each with the hashes of
the files that it offers, and an index from a hash to the one peer that is named when the
hash is resolved. The first peer that registers a hash owns it. The maps are written by two
calls only, `register` and `remove`, and both of them run under one lock, so a history of the
registry is a list of calls.

All that a call does to the two maps is said by `Rewrites`: the hashes that its peer owned
are given up, the hashes of the call that nobody owns are taken, and the entry of its peer is
replaced. The index then never names a peer that does not list the hash. The converse needs
more: nobody takes over a hash that is given up.
-/

namespace Company

open HashMap List

def maxPeers : Nat := 10000

/-- A registered peer. Messages for it are put into the channel `tx`. -/
structure PeerEntry (Tx : Type) where
  peerId : String
  fileHashes : List String
  multiaddr : Option String
  tx : Tx
deriving DecidableEq

structure SignalingState (Tx : Type) where
  peers : HashMap String (PeerEntry Tx) := ∅
  hashIndex : HashMap String String := ∅

variable {Tx : Type}

namespace SignalingState

variable (peerId : String) (state : SignalingState Tx)

/-- Remove all hashes that a peer owns from the index, and return them. -/
def removeHashes : List String × SignalingState Tx :=
  ((state.hashIndex.entries.filter fun e => e.2 = peerId).map Sigma.fst,
    { state with hashIndex := state.hashIndex.retain fun _ owner => owner ≠ peerId })

/-- Index hashes for a peer; the first registrant wins. -/
def indexHashes (hashes : List String) (peerId : String) (index : HashMap String String) :
    HashMap String String :=
  hashes.foldl (fun index hash => index.orInsert hash peerId) index

/-- Register or re-register a peer. A new peer is refused at capacity. -/
def register (entry : PeerEntry Tx) (state : SignalingState Tx) :
    Except Unit Unit × SignalingState Tx :=
  let isExisting := (state.peers.lookup entry.peerId).isSome
  if !isExisting && maxPeers ≤ state.peers.size then (.error (), state)
  else
    let cleaned := if isExisting then (state.removeHashes entry.peerId).2 else state
    (.ok (),
      { peers := cleaned.peers.put entry.peerId entry
        hashIndex := indexHashes entry.fileHashes entry.peerId cleaned.hashIndex })

/-- Remove a peer entirely, and return the hashes that were removed from the
index. -/
def remove : List String × SignalingState Tx :=
  let removed := state.removeHashes peerId
  (removed.1, { removed.2 with peers := removed.2.peers.erase peerId })

def resolve (hash : String) (state : SignalingState Tx) : Option (PeerEntry Tx) :=
  (state.hashIndex.lookup hash).bind fun peerId => state.peers.lookup peerId

def getPeer : Option (PeerEntry Tx) :=
  state.peers.lookup peerId

end SignalingState

/-- A call that writes to the registry. -/
inductive SignalingCall (Tx : Type) where
  | register (entry : PeerEntry Tx)
  | remove (peerId : String)
deriving DecidableEq

variable {call : SignalingCall Tx}

namespace SignalingCall

def peerId : SignalingCall Tx → String
  | register entry => entry.peerId
  | remove peerId => peerId

/-- The entry that a call leaves for its peer. -/
def entry : SignalingCall Tx → Option (PeerEntry Tx)
  | register entry => some entry
  | remove _ => none

/-- The hashes that the peer of a call lists afterwards. -/
def hashes (call : SignalingCall Tx) : List String :=
  call.entry.elim [] PeerEntry.fileHashes

theorem mem_hashes {hash : String} :
    hash ∈ call.hashes ↔ ∃ entry, call.entry = some entry ∧ hash ∈ entry.fileHashes := by
  cases call with
  | register entry | remove peerId => simp [hashes, SignalingCall.entry]

theorem peerId_of_entry {entry : PeerEntry Tx}
    (left : call.entry = some entry) : entry.peerId = call.peerId := by
  cases call with
  | register _ =>
    cases left
    rfl
  | remove _ => cases left

end SignalingCall

open SignalingCall

namespace SignalingState

variable {state state' : SignalingState Tx}

def apply (state : SignalingState Tx) : SignalingCall Tx → SignalingState Tx
  | .register entry => (state.register entry).2
  | .remove peerId => (state.remove peerId).2

/-- The state after a history of calls on the empty registry. -/
def run (calls : List (SignalingCall Tx)) : SignalingState Tx := calls.foldl apply {}

theorem run_append (done calls : List (SignalingCall Tx)) :
    run (done ++ calls) = calls.foldl apply (run done) :=
  foldl_append

variable (calls : List (SignalingCall Tx))

theorem run_concat (call : SignalingCall Tx) : run (calls ++ [call]) = (run calls).apply call :=
  run_append calls [call]

/-- The two maps agree: what the index names is registered and lists the hash,
entries are stored under their own id, and there are not too many of them. -/
structure Integral (state : SignalingState Tx) : Prop where
  indexed : ∀ hash owner, state.hashIndex.lookup hash = some owner →
    ∃ entry, state.peers.lookup owner = some entry ∧ hash ∈ entry.fileHashes
  keyed : ∀ id entry, state.peers.lookup id = some entry → entry.peerId = id
  bounded : state.peers.size ≤ maxPeers

/-- What an accepted call does to the two maps. -/
structure Rewrites (state : SignalingState Tx) (call : SignalingCall Tx)
    (state' : SignalingState Tx) : Prop where
  index : ∀ hash, state'.hashIndex.lookup hash =
    ((state.hashIndex.lookup hash).filter fun owner => owner ≠ call.peerId).or
      (if hash ∈ call.hashes then some call.peerId else none)
  self : state'.peers.lookup call.peerId = call.entry
  others : ∀ id, id ≠ call.peerId → state'.peers.lookup id = state.peers.lookup id

theorem lookup_indexHashes (hashes : List String) (peerId hash : String)
    (index : HashMap String String) :
    (indexHashes hashes peerId index).lookup hash =
      (index.lookup hash).or (if hash ∈ hashes then some peerId else none) := by
  induction hashes generalizing index with
  | nil => simp [indexHashes]
  | cons first hashes ih =>
    rw [indexHashes, foldl_cons, ← indexHashes, ih, lookup_orInsert, Option.or_assoc]
    congr 1
    by_cases same : hash = first
    · simp [same]
    · simp [same]

/-- A call that is not refused rewrites the maps. -/
theorem Integral.apply_cases (integral : state.Integral) (call : SignalingCall Tx) :
    (state.apply call = state ∧ state.peers.lookup call.peerId = none) ∨
      state.Rewrites call (state.apply call) := by
  cases call with
  | remove peerId =>
    right
    refine ⟨?_, ?_, ?_⟩
    · intro hash
      have nothing : hash ∉ (SignalingCall.remove peerId : SignalingCall Tx).hashes := not_mem_nil
      rw [if_neg nothing, Option.or_none]
      exact lookup_retain ..
    · exact AList.lookup_erase _ _
    · intro id other
      exact AList.lookup_erase_ne other
  | register entry =>
    cases found : state.peers.lookup entry.peerId with
    | none =>
      by_cases full : maxPeers ≤ state.peers.size
      · left
        exact ⟨by simp [apply, register, found, full], found⟩
      · right
        have written : state.apply (.register entry) =
            { peers := state.peers.put entry.peerId entry
              hashIndex := indexHashes entry.fileHashes entry.peerId state.hashIndex } := by
          simp [apply, register, found, full]
        rw [written]
        refine ⟨?_, lookup_put .., ?_⟩
        · -- A peer that is not registered owns nothing that could be given up.
          intro hash
          rw [lookup_indexHashes]
          congr 1
          cases owned : state.hashIndex.lookup hash with
          | none => rfl
          | some owner =>
            obtain ⟨_, registered, _⟩ := integral.indexed hash owner owned
            have other : owner ≠ entry.peerId := by
              rintro rfl
              rw [found] at registered
              cases registered
            symm
            rw [Option.filter_eq_some_iff]
            exact ⟨rfl, decide_eq_true other⟩
        · intro id other
          exact lookup_put_ne _ other _
    | some old =>
      right
      have written : state.apply (.register entry) =
          { peers := state.peers.put entry.peerId entry
            hashIndex := indexHashes entry.fileHashes entry.peerId
              (state.hashIndex.retain fun _ owner => owner ≠ entry.peerId) } := by
        simp [apply, register, removeHashes, found]
      rw [written]
      refine ⟨?_, lookup_put .., ?_⟩
      · intro hash
        rw [lookup_indexHashes, lookup_retain]
        rfl
      · intro id other
        exact lookup_put_ne _ other _

theorem size_apply_le (bounded : state.peers.size ≤ maxPeers) (call : SignalingCall Tx) :
    (state.apply call).peers.size ≤ maxPeers := by
  cases call with
  | remove peerId => exact Nat.le_trans (size_erase_le state.peers peerId) bounded
  | register entry =>
    cases found : state.peers.lookup entry.peerId with
    | none =>
      by_cases full : maxPeers ≤ state.peers.size
      · simpa [apply, register, found, full] using bounded
      · have new := size_put_of_none found entry
        simp only [apply, register, found, full]
        simp
        omega
    | some old =>
      have same := size_put_of_some found entry
      simpa [apply, register, removeHashes, found, same] using bounded

variable {hash owner : String}

/-- The hash has an owner after a call exactly if it had another one, or the
call takes it. -/
theorem Rewrites.owner_iff (rewrites : state.Rewrites call state') :
    state'.hashIndex.lookup hash = some owner ↔
      (state.hashIndex.lookup hash = some owner ∧ owner ≠ call.peerId) ∨
        ((∀ other, state.hashIndex.lookup hash = some other → other = call.peerId) ∧
          hash ∈ call.hashes ∧ owner = call.peerId) := by
  rw [rewrites.index]
  cases owned : state.hashIndex.lookup hash with
  | none => grind
  | some other =>
    by_cases own : other = call.peerId
    · grind
    · grind

theorem Integral.apply (integral : state.Integral) (call : SignalingCall Tx) :
    (state.apply call).Integral := by
  obtain ⟨unchanged, _⟩ | rewrites := integral.apply_cases call
  · rwa [unchanged]
  · refine ⟨?_, ?_, size_apply_le integral.bounded call⟩
    · intro hash owner owned
      obtain ⟨before, other⟩ | ⟨_, taken, rfl⟩ := rewrites.owner_iff.mp owned
      · rw [rewrites.others owner other]
        exact integral.indexed hash owner before
      · rw [rewrites.self]
        exact mem_hashes.mp taken
    · intro id entry stored
      by_cases own : id = call.peerId
      · subst own
        rw [rewrites.self] at stored
        exact peerId_of_entry stored
      · rw [rewrites.others id own] at stored
        exact integral.keyed id entry stored

theorem integral_empty : ({} : SignalingState Tx).Integral := by
  refine ⟨?_, ?_, ?_⟩
  · intro hash owner owned
    cases owned
  · intro id entry stored
    cases stored
  · exact Nat.zero_le _

theorem integral_run : (run calls).Integral := by
  induction calls using reverseRecOn with
  | nil => exact integral_empty
  | append_singleton calls call ih =>
    rw [run_concat]
    exact ih.apply call

variable {entry : PeerEntry Tx}

/-- An accepted registration writes the entry under its own id. -/
theorem peers_of_register_ok (accepted : state.register entry = (.ok (), state')) :
    state'.peers = state.peers.put entry.peerId entry := by
  unfold register at accepted
  dsimp only at accepted
  split at accepted
  · cases accepted
  · cases accepted
    split <;> rfl

theorem register_of_error (refused : (state.register entry).1 = .error ()) :
    (state.register entry).2 = state := by
  unfold register at refused ⊢
  dsimp only at refused ⊢
  split at refused
  · rename_i full
    rw [if_pos full]
  · cases refused

/-- A hash keeps its owner through the calls about other peers. -/
theorem Integral.owner_foldl (integral : state.Integral)
    (owned : state.hashIndex.lookup hash = some owner) {calls : List (SignalingCall Tx)}
    (others : ∀ call ∈ calls, call.peerId ≠ owner) :
    (calls.foldl SignalingState.apply state).hashIndex.lookup hash = some owner := by
  induction calls generalizing state with
  | nil => exact owned
  | cons call calls ih =>
    obtain ⟨other, later⟩ := forall_mem_cons.mp others
    refine ih (integral.apply call) ?_ later
    obtain ⟨unchanged, _⟩ | rewrites := integral.apply_cases call
    · rwa [unchanged]
    · exact rewrites.owner_iff.mpr (.inl ⟨owned, other.symm⟩)

/-- Index integrity. After every history of calls the index names registered
peers that list the hash, entries are stored under their own id and their number
is bounded; a registration that is refused changes nothing; and a hash keeps its
owner until a call is about that peer. -/
theorem signaling_index_integrity (calls : List (SignalingCall Tx)) :
    (∀ hash owner, (run calls).hashIndex.lookup hash = some owner →
      ∃ entry, (run calls).peers.lookup owner = some entry ∧ hash ∈ entry.fileHashes) ∧
    (∀ id entry, (run calls).peers.lookup id = some entry → entry.peerId = id) ∧
    (run calls).peers.size ≤ maxPeers ∧
    (∀ entry, ((run calls).register entry).1 = .error () →
      ((run calls).register entry).2 = run calls) ∧
    ∀ hash owner, (run calls).hashIndex.lookup hash = some owner →
      ∀ later : List (SignalingCall Tx), (∀ call ∈ later, call.peerId ≠ owner) →
        (run (calls ++ later)).hashIndex.lookup hash = some owner := by
  have integral := integral_run calls
  refine ⟨integral.indexed, integral.keyed, integral.bounded, ?_, ?_⟩
  · intro entry refused
    exact register_of_error refused
  · intro hash owner owned later others
    rw [run_append]
    exact integral.owner_foldl owned others

/-- Every hash that a registered peer lists is resolved to a registered peer
that lists it. -/
def Complete (state : SignalingState Tx) : Prop :=
  ∀ id entry hash, state.peers.lookup id = some entry → hash ∈ entry.fileHashes →
    ∃ found, state.resolve hash = some found ∧ hash ∈ found.fileHashes ∧
      state.peers.lookup found.peerId = some found

/-- A hash that the peer of the call owns and that another registered peer lists
too is listed again by the call. -/
def LeavesNoOrphan (state : SignalingState Tx) (call : SignalingCall Tx) : Prop :=
  ∀ id entry hash, state.peers.lookup id = some entry → hash ∈ entry.fileHashes →
    id ≠ call.peerId → state.hashIndex.lookup hash = some call.peerId → hash ∈ call.hashes

/-- With an index that can be trusted, a hash is resolved once it has an
owner. -/
theorem Integral.complete_iff (integral : state.Integral) :
    state.Complete ↔ ∀ id entry hash, state.peers.lookup id = some entry →
      hash ∈ entry.fileHashes → ∃ owner, state.hashIndex.lookup hash = some owner := by
  constructor
  · intro complete id entry hash stored listed
    obtain ⟨found, resolved, _⟩ := complete id entry hash stored listed
    obtain ⟨owner, owned, _⟩ := Option.bind_eq_some_iff.mp resolved
    exact ⟨owner, owned⟩
  · intro owners id entry hash stored listed
    obtain ⟨owner, owned⟩ := owners id entry hash stored listed
    obtain ⟨found, registered, lists⟩ := integral.indexed hash owner owned
    refine ⟨found, ?_, lists, ?_⟩
    · rw [resolve, owned]
      exact registered
    · rwa [integral.keyed owner found registered]

/-- One call keeps the registry complete exactly if it leaves no orphan. -/
theorem Integral.complete_apply_iff (integral : state.Integral) (complete : state.Complete)
    (call : SignalingCall Tx) : (state.apply call).Complete ↔ state.LeavesNoOrphan call := by
  rw [integral.complete_iff] at complete
  rw [(integral.apply call).complete_iff]
  obtain ⟨unchanged, absent⟩ | rewrites := integral.apply_cases call
  · -- A peer that is refused is not registered and owns nothing.
    rw [unchanged]
    refine ⟨?_, fun _ => complete⟩
    intro _ id entry hash _ _ _ owned
    obtain ⟨_, registered, _⟩ := integral.indexed hash _ owned
    rw [absent] at registered
    cases registered
  · constructor
    · intro owners id entry hash stored listed other owned
      rw [← rewrites.others id other] at stored
      obtain ⟨owner, later⟩ := owners id entry hash stored listed
      obtain ⟨before, kept⟩ | ⟨_, taken, _⟩ := rewrites.owner_iff.mp later
      · rw [owned] at before
        exact absurd (Option.some.inj before).symm kept
      · exact taken
    · intro noOrphan id entry hash stored listed
      -- The hash stays with its owner, unless the owner is the peer of the call.
      have listsOwn : (∀ owner, state.hashIndex.lookup hash = some owner → owner = call.peerId) →
          hash ∈ call.hashes := by
        intro given
        by_cases own : id = call.peerId
        · subst own
          rw [rewrites.self] at stored
          exact mem_hashes.mpr ⟨entry, stored, listed⟩
        · rw [rewrites.others id own] at stored
          obtain ⟨owner, owned⟩ := complete id entry hash stored listed
          rw [given owner owned] at owned
          exact noOrphan id entry hash stored listed own owned
      by_cases given : ∀ owner, state.hashIndex.lookup hash = some owner → owner = call.peerId
      · exact ⟨call.peerId, rewrites.owner_iff.mpr (.inr ⟨given, listsOwn given, rfl⟩)⟩
      · push Not at given
        obtain ⟨owner, owned, other⟩ := given
        exact ⟨owner, rewrites.owner_iff.mpr (.inl ⟨owned, other⟩)⟩

/-- Along a history of calls every listed hash is resolved exactly if no call
takes away a hash that another registered peer lists. -/
theorem signaling_complete_iff (calls : List (SignalingCall Tx)) :
    (∀ done, done <+: calls → (run done).Complete) ↔
      ∀ done call, done ++ [call] <+: calls → (run done).LeavesNoOrphan call := by
  constructor
  · intro complete done call begun
    have before := complete done ((prefix_append done [call]).trans begun)
    have after := complete (done ++ [call]) begun
    rw [run_concat] at after
    exact ((integral_run done).complete_apply_iff before call).mp after
  · intro noOrphan done
    induction done using reverseRecOn with
    | nil =>
      intro _ id entry hash stored
      cases stored
    | append_singleton done call ih =>
      intro begun
      have before := ih ((prefix_append done [call]).trans begun)
      rw [run_concat]
      exact ((integral_run done).complete_apply_iff before call).mpr (noOrphan done call begun)

def sharedHash : List (SignalingCall Unit) :=
  [.register ⟨"first", ["hash"], none, ()⟩, .register ⟨"second", ["hash"], none, ()⟩,
    .remove "first"]

/-- Two peers list one hash, and the first of them leaves. The second one still
lists the hash, and it is not resolved. -/
theorem shared_hash_unresolved : ¬ (run sharedHash).Complete := by
  intro complete
  have listed : (run sharedHash).peers.lookup "second" =
      some ⟨"second", ["hash"], none, ()⟩ := by decide +kernel
  obtain ⟨found, ⟨⟩, _⟩ := complete "second" _ "hash" listed mem_cons_self

end SignalingState

end Company
