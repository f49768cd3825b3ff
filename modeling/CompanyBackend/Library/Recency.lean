import Mathlib.Data.List.Induction
import Mathlib.Data.List.Nodup
import Mathlib.Data.List.TakeWhile

/-!
# Caches that forget the least recently used key

A cache holds at most `capacity` keys. Every use of a key, whether the cache holds it or not, makes
it the latest; a new key that finds the cache full takes the place of the one that was used last
the longest ago.

`recent` arranges the keys of a history by their last use. What a cache holds is the beginning of
that list, so whether a key is still there can be told from the history alone: it is, as long as
fewer than `capacity` other keys have been used since.
-/

/-- The keys of a cache, the one used last first. -/
structure LruCache (α : Type) (capacity : Nat) where
  keys : List α
  nodup : keys.Nodup
  bounded : keys.length ≤ capacity

namespace LruCache

open List

variable {α : Type} [DecidableEq α] {capacity : Nat}

def empty : LruCache α capacity where
  keys := []
  nodup := .nil
  bounded := Nat.zero_le _

/-- Whether the cache holds the key. If so, the key becomes the latest. -/
def get (cache : LruCache α capacity) (key : α) : Bool × LruCache α capacity :=
  if held : key ∈ cache.keys then
    (true,
      { keys := key :: cache.keys.erase key
        nodup := (List.perm_cons_erase held).nodup_iff.mp cache.nodup
        bounded := (List.perm_cons_erase held).length_eq ▸ cache.bounded })
  else (false, cache)

/-- Store a key as the latest. If there are too many, the oldest one goes. -/
def put (cache : LruCache α capacity) (key : α) : LruCache α capacity where
  keys := (key :: cache.keys.erase key).take capacity
  nodup := by
    have whole : (key :: cache.keys.erase key).Nodup :=
      List.nodup_cons.mpr ⟨cache.nodup.not_mem_erase, cache.nodup.erase key⟩
    exact whole.sublist (List.take_sublist _ _)
  bounded := List.length_take_le _ _

/-- Look a key up, and store it if it is not there. -/
def use (cache : LruCache α capacity) (key : α) : LruCache α capacity :=
  if (cache.get key).1 then (cache.get key).2 else cache.put key

def discard (cache : LruCache α capacity) (gone : α → Bool) : LruCache α capacity where
  keys := cache.keys.filter fun key => !gone key
  nodup := cache.nodup.filter _
  bounded := (List.length_filter_le _ _).trans cache.bounded

variable {cache : LruCache α capacity} {key : α}

@[simp] theorem get_fst (cache : LruCache α capacity) (key : α) :
    (cache.get key).1 = decide (key ∈ cache.keys) := by
  rw [get]
  split <;> simp_all

@[simp] theorem keys_put (cache : LruCache α capacity) (key : α) :
    (cache.put key).keys = (key :: cache.keys.erase key).take capacity := rfl

/-- A hit and a miss leave the same list. -/
@[simp] theorem keys_use (cache : LruCache α capacity) (key : α) :
    (cache.use key).keys = (key :: cache.keys.erase key).take capacity := by
  rw [use, get_fst]
  by_cases held : key ∈ cache.keys
  · have fits : (key :: cache.keys.erase key).length ≤ capacity :=
      (perm_cons_erase held).length_eq ▸ cache.bounded
    rw [take_of_length_le fits]
    simp [get, held]
  · simp [held]

/-- A key that the cache holds or has room for displaces no other. -/
theorem mem_use_of_fits {other : α} (fits : key ∈ cache.keys ∨ cache.keys.length < capacity)
    (held : other ∈ cache.keys) : other ∈ (cache.use key).keys := by
  have room : (key :: cache.keys.erase key).length ≤ capacity := by
    rcases fits with again | room
    · exact (perm_cons_erase again).length_eq ▸ cache.bounded
    · exact (Nat.succ_le_succ (length_erase_le ..)).trans room
  rw [keys_use, take_of_length_le room]
  by_cases same : other = key
  · exact same ▸ mem_cons_self
  · exact mem_cons_of_mem _ ((mem_erase_of_ne same).mpr held)

theorem get_snd_of_mem (held : key ∈ cache.keys) : (cache.get key).2 = cache.use key := by
  simp [use, held]

theorem put_of_notMem (absent : key ∉ cache.keys) : cache.put key = cache.use key := by
  simp [use, absent]

end LruCache

section Histories

variable {α : Type} [DecidableEq α] {key : α} {history l : List α}

/-- The different keys of a history, both with the latest first. -/
def recent : List α → List α
  | [] => []
  | key :: history => key :: (recent history).erase key

@[simp] theorem mem_recent : key ∈ recent history ↔ key ∈ history := by
  induction history with
  | nil => simp [recent]
  | cons first history ih =>
    by_cases same : key = first
    · simp [recent, same]
    · simp [recent, same, List.mem_erase_of_ne, ih]

theorem nodup_recent (history : List α) : (recent history).Nodup := by
  induction history with
  | nil => exact .nil
  | cons first history ih => exact List.nodup_cons.mpr ⟨ih.not_mem_erase, ih.erase first⟩

theorem recent_of_nodup (nodup : history.Nodup) : recent history = history := by
  induction history with
  | nil => rfl
  | cons first history ih =>
    obtain ⟨absent, rest⟩ := List.nodup_cons.mp nodup
    rw [recent, ih rest, List.erase_of_not_mem absent]

/-- What is cut off does not matter to a shorter beginning. -/
theorem take_erase_take (l : List α) (n : Nat) :
    ((l.take (n + 1)).erase key).take n = (l.erase key).take n := by
  induction l generalizing n with
  | nil => simp
  | cons first l ih =>
    by_cases same : first = key
    · simp [same, List.take_take]
    · cases n with
      | zero => simp
      | succ n => simp [same, ih]

/-- Cutting off before or after an erasure is the same, where the erased key is
not the end. -/
theorem takeWhile_erase {p : α → Bool} (passes : p key) :
    (l.erase key).takeWhile p = (l.takeWhile p).erase key := by
  induction l with
  | nil => rfl
  | cons first l ih =>
    by_cases same : first = key
    · simp [same, passes]
    · by_cases first_passes : p first = true
      · simp [same, first_passes, ih]
      · simp [same, first_passes]

/-- The other keys that have been used since the last use of a key. -/
def othersSince (key : α) (history : List α) : List α := recent (history.takeWhile (· != key))

/-- The keys in front of a key are those that have been used since. -/
theorem takeWhile_recent (key : α) (history : List α) :
    (recent history).takeWhile (· != key) = othersSince key history := by
  induction history with
  | nil => rfl
  | cons first history ih =>
    rw [othersSince] at ih ⊢
    by_cases same : first = key
    · simp [recent, same]
    · have other : (first != key) = true := by simp [same]
      simp only [recent, List.takeWhile_cons, other, if_true]
      rw [takeWhile_erase (p := (· != key)) other, ih]

theorem mem_take_iff_takeWhile {n : Nat} :
    key ∈ l.take n ↔ key ∈ l ∧ (l.takeWhile (· != key)).length < n := by
  induction l generalizing n with
  | nil => simp
  | cons first l ih =>
    cases n with
    | zero => simp
    | succ n =>
      by_cases same : first = key
      · simp [same]
      · have other : ¬ key = first := fun equal => same equal.symm
        simp [same, other, ih]

/-- The key is in a cache of this capacity after the history. -/
def Remembered (capacity : Nat) (history : List α) (key : α) : Prop :=
  key ∈ history ∧ (othersSince key history).length < capacity

instance decidableRemembered (capacity : Nat) (history : List α) (key : α) :
    Decidable (Remembered capacity history key) :=
  inferInstanceAs (Decidable (_ ∧ _))

theorem mem_take_recent_iff {capacity : Nat} :
    key ∈ (recent history).take capacity ↔ Remembered capacity history key := by
  rw [mem_take_iff_takeWhile, mem_recent, takeWhile_recent, Remembered]

end Histories

namespace LruCache

variable {α : Type} [DecidableEq α] {capacity : Nat} {cache : LruCache α capacity} {key : α}

/-- A history of uses leaves the beginning of the recent keys. -/
theorem keys_foldl_use (uses : List α) (cache : LruCache α capacity) :
    (uses.foldl use cache).keys = (recent (uses.reverse ++ cache.keys)).take capacity := by
  induction uses using List.reverseRecOn with
  | nil =>
    rw [List.foldl_nil, List.reverse_nil, List.nil_append, recent_of_nodup cache.nodup,
      List.take_of_length_le cache.bounded]
  | append_singleton uses key ih =>
    rw [List.foldl_append, List.foldl_cons, List.foldl_nil, keys_use, ih, List.reverse_append,
      List.reverse_singleton, List.singleton_append, List.cons_append, recent]
    cases capacity with
    | zero => simp
    | succ n => simp only [List.take_succ_cons, take_erase_take]

variable {uses : List α}

/-- Whether a key is in the cache can be told from the history of uses. -/
theorem mem_keys_foldl_use_iff : key ∈ (uses.foldl use cache).keys ↔
      Remembered capacity (uses.reverse ++ cache.keys) key := by
  rw [keys_foldl_use, mem_take_recent_iff]

/-- A key that was used and is no longer there has been displaced by as many
others as the cache holds. -/
theorem exists_others_of_forgotten (forgotten : key ∉ (uses.foldl use (cache.use key)).keys) :
    ∃ others : List α, others.Nodup ∧ (∀ other ∈ others, other ∈ uses ∧ other ≠ key) ∧
      capacity ≤ others.length := by
  have history : (uses.foldl use (cache.use key)) = (key :: uses).foldl use cache := rfl
  rw [history, mem_keys_foldl_use_iff, Remembered, not_and, Nat.not_lt] at forgotten
  refine ⟨othersSince key ((key :: uses).reverse ++ cache.keys), nodup_recent _, ?_,
    forgotten (by simp)⟩
  intro other since
  rw [othersSince, mem_recent] at since
  have apart : other ≠ key := by simpa using List.mem_takeWhile_imp since
  refine ⟨?_, apart⟩
  -- The search stops at the key itself, so what it has seen was used after it.
  have before : (((key :: uses).reverse ++ cache.keys).takeWhile (· != key)) =
      uses.reverse.takeWhile (· != key) := by
    rw [List.reverse_cons, List.append_assoc, List.singleton_append, List.takeWhile_append]
    split
    · next whole =>
      have all : uses.reverse.takeWhile (· != key) = uses.reverse :=
        (List.takeWhile_prefix _).eq_of_length whole
      simp [all]
    · rfl
  rw [before] at since
  exact List.mem_reverse.mp ((List.takeWhile_sublist _).mem since)

/-- As many other keys as the cache holds displace a key. -/
theorem forgotten_of_others (different : uses.Nodup) (apart : key ∉ uses)
    (enough : capacity ≤ uses.length) : key ∉ (uses.foldl use (cache.use key)).keys := by
  have history : (uses.foldl use (cache.use key)) = (key :: uses).foldl use cache := rfl
  have passed : ∀ other ∈ uses.reverse, (other != key) = true := by
    intro other listed
    exact bne_iff_ne.mpr fun same => apart (same ▸ List.mem_reverse.mp listed)
  rw [history, mem_keys_foldl_use_iff, Remembered, othersSince, List.reverse_cons,
    List.append_assoc, List.takeWhile_append_of_pos passed]
  simp [recent_of_nodup (List.nodup_reverse.mpr different), enough]

end LruCache
