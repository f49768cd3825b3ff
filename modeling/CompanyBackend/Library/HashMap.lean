import Mathlib.Data.List.AList
import Mathlib.Tactic.Common

/-!
# Hash maps with an unspecified iteration order

A map is mathlib's `AList`: entries with distinct keys, in some order. The order
of the entries plays the role of the iteration order, so a statement about every
map is a statement about every iteration order. Lookup, removal and insertion of
a new key are mathlib's own. Writing to a key that is present keeps the position
of its entry, as an update through a mutable reference does.
-/

/-- Entries with distinct keys, listed in iteration order. -/
abbrev HashMap (K V : Type) := AList (fun _ : K => V)

namespace HashMap

open List Option

variable {K V W : Type} [DecidableEq K]

/-- Insert, or overwrite in place when the key is present. -/
def put (key : K) (value : V) (map : HashMap K V) : HashMap K V :=
  if (map.lookup key).isSome then map.replace key value else map.insert key value

/-- Change the value under a key through a mutable reference, if there is
one. -/
def modify (key : K) (f : V → V) (map : HashMap K V) : HashMap K V :=
  match map.lookup key with
  | some value => map.replace key (f value)
  | none => map

/-- Collect pairs into a map, a later pair overwriting an earlier one. -/
def ofPairs (pairs : List (K × V)) : HashMap K V :=
  pairs.foldl (fun map pair => map.put pair.1 pair.2) ∅

/-- Put all values under their keys, a later value overwriting an earlier
one. -/
def putBy (keyOf : V → K) (values : List V) (map : HashMap K V) : HashMap K V :=
  values.foldl (fun map value => map.put (keyOf value) value) map

def eraseAll (keys : List K) (map : HashMap K V) : HashMap K V :=
  keys.foldl (fun map key => map.erase key) map

def retain (keep : K → V → Bool) (map : HashMap K V) : HashMap K V where
  entries := map.entries.filter fun e => keep e.1 e.2
  nodupKeys := map.nodupKeys.sublist List.filter_sublist

def orInsert (key : K) (value : V) (map : HashMap K V) : HashMap K V :=
  if (map.lookup key).isSome then map else map.insert key value

def size (map : HashMap K V) : Nat := map.entries.length

/-- The key that was put first of those that are present: a new key comes first,
and what is written again or removed keeps the order. -/
def oldest (map : HashMap K V) : Option K := map.entries.getLast?.map Sigma.fst

def values (map : HashMap K V) : List V := map.entries.map Sigma.snd

/-- Change every value, keeping the keys and their order. -/
def mapValues (f : V → W) (map : HashMap K V) : HashMap K W where
  entries := map.entries.map fun e => ⟨e.1, f e.2⟩
  nodupKeys := by
    have keys : (map.entries.map fun e => (⟨e.1, f e.2⟩ : Sigma fun _ : K => W)).keys =
        map.entries.keys := by
      simp [List.keys]
    rw [List.NodupKeys, keys]
    exact map.nodupKeys

variable {map : HashMap K V} {key : K} {value : V}

theorem mem_entries_iff :
    (⟨key, value⟩ : Sigma fun _ : K => V) ∈ map.entries ↔ map.lookup key = some value :=
  AList.mem_lookup_iff.symm

private theorem kreplace_eq_map (key : K) (value : V) :
    ∀ entries : List (Sigma fun _ : K => V), entries.NodupKeys →
      entries.kreplace key value =
        entries.map fun e => if key = e.1 then ⟨key, value⟩ else e
  | [], _ => rfl
  | e :: entries, nodup => by
    obtain ⟨fresh, rest⟩ := nodupKeys_cons.mp nodup
    by_cases same : key = e.1
    · have untouched :
          entries.map (fun e => if key = e.1 then ⟨key, value⟩ else e) = entries := by
        conv => rhs; rw [← map_id entries]
        apply map_congr_left
        intro e' member
        have other : key ≠ e'.1 := by
          intro equal
          exact fresh (same ▸ equal ▸ mem_keys_of_mem member)
        simp [other]
      have written : (if key = e.1 then some (⟨key, value⟩ : Sigma fun _ : K => V) else none) =
          some ⟨key, value⟩ := if_pos same
      rw [kreplace, lookmap_cons_some _ entries written, map_cons, if_pos same, untouched]
    · rw [kreplace, lookmap_cons_none _ _ (by simp [same]), ← kreplace,
        kreplace_eq_map key value entries rest]
      simp [same]

/-- Overwriting in place maps the entries and leaves their order alone. -/
theorem entries_replace (map : HashMap K V) (key : K) (value : V) :
    (map.replace key value).entries =
      map.entries.map fun e => if key = e.1 then ⟨key, value⟩ else e :=
  kreplace_eq_map key value map.entries map.nodupKeys

theorem lookup_replace (present : (map.lookup key).isSome) (value : V) :
    (map.replace key value).lookup key = some value := by
  rw [← mem_entries_iff, entries_replace, List.mem_map]
  obtain ⟨old, found⟩ := isSome_iff_exists.mp present
  exact ⟨⟨key, old⟩, mem_entries_iff.mpr found, by simp⟩

variable {other : K}

theorem lookup_replace_ne (map : HashMap K V) (ne : other ≠ key) (value : V) :
    (map.replace key value).lookup other = map.lookup other := by
  apply ext
  intro found
  rw [← mem_entries_iff, ← mem_entries_iff, entries_replace, List.mem_map]
  constructor
  · rintro ⟨e, member, written⟩
    split at written
    · cases written
      exact absurd rfl ne
    · exact written ▸ member
  · intro member
    exact ⟨_, member, by simp [ne.symm]⟩

@[simp] theorem lookup_put (map : HashMap K V) (key : K) (value : V) :
    (map.put key value).lookup key = some value := by
  unfold put
  split
  · exact lookup_replace (by assumption) value
  · exact AList.lookup_insert map

theorem lookup_put_ne (map : HashMap K V) (ne : other ≠ key) (value : V) :
    (map.put key value).lookup other = map.lookup other := by
  unfold put
  split
  · exact lookup_replace_ne map ne value
  · exact AList.lookup_insert_ne ne

/-- A new key comes first. -/
theorem entries_put_of_none (absent : map.lookup key = none) (value : V) :
    (map.put key value).entries = ⟨key, value⟩ :: map.entries := by
  rw [put, absent]
  exact AList.entries_insert_of_notMem (AList.lookup_eq_none.mp absent)

/-- A present key is overwritten in place. -/
theorem entries_put_of_some {old : V} (present : map.lookup key = some old) (value : V) :
    (map.put key value).entries =
      map.entries.map fun e => if key = e.1 then ⟨key, value⟩ else e := by
  rw [put, present]
  exact entries_replace map key value

@[simp] theorem lookup_modify (map : HashMap K V) (key : K) (f : V → V) :
    (map.modify key f).lookup key = (map.lookup key).map f := by
  unfold modify
  cases found : map.lookup key with
  | none => simpa using found
  | some value => simpa using lookup_replace (by simp [found]) (f value)

theorem lookup_modify_ne (map : HashMap K V) (ne : other ≠ key) (f : V → V) :
    (map.modify key f).lookup other = map.lookup other := by
  unfold modify
  split
  · exact lookup_replace_ne map ne _
  · rfl

theorem isSome_lookup_modify (map : HashMap K V) (key other : K) (f : V → V) :
    ((map.modify key f).lookup other).isSome = (map.lookup other).isSome := by
  by_cases same : other = key
  · rw [same, lookup_modify, isSome_map]
  · rw [lookup_modify_ne map same]

/-- An edit of the values keeps the keys. -/
theorem keep_comp_edit (keep : K → Bool) (key : K) (f : V → V) :
    ((fun e : Sigma fun _ : K => V => keep e.1) ∘ fun e => if key = e.1 then ⟨key, f e.2⟩ else e) =
      fun e => keep e.1 := by
  funext e
  by_cases same : key = e.1 <;> simp [same]

/-- A modification maps the entries in place. -/
theorem entries_modify (map : HashMap K V) (key : K) (f : V → V) :
    (map.modify key f).entries =
      map.entries.map fun e => if key = e.1 then ⟨key, f e.2⟩ else e := by
  unfold modify
  cases found : map.lookup key with
  | none =>
    conv => lhs; rw [← map_id map.entries]
    apply map_congr_left
    rintro ⟨other, value⟩ member
    have absent : key ≠ other := by
      rintro rfl
      rw [mem_entries_iff.mp member] at found
      cases found
    simp [absent]
  | some value =>
    rw [entries_replace]
    apply map_congr_left
    rintro ⟨other, old⟩ member
    by_cases same : key = other
    · subst same
      rw [mem_entries_iff.mp member] at found
      simp [some.inj found]
    · simp [same]

@[simp] theorem lookup_mapValues (map : HashMap K V) (f : V → W) (key : K) :
    (map.mapValues f).lookup key = (map.lookup key).map f := by
  apply ext
  intro value
  rw [← mem_entries_iff, map_eq_some_iff]
  simp only [mapValues, List.mem_map]
  constructor
  · rintro ⟨⟨_, old⟩, member, written⟩
    cases written
    exact ⟨old, mem_entries_iff.mp member, rfl⟩
  · rintro ⟨old, found, rfl⟩
    exact ⟨⟨key, old⟩, mem_entries_iff.mpr found, rfl⟩

/-- An entry is found after filtering exactly if it was there and passed the
test. -/
@[simp] theorem lookup_retain (map : HashMap K V) (keep : K → V → Bool) (key : K) :
    (map.retain keep).lookup key = (map.lookup key).filter (keep key) := by
  apply ext
  intro value
  rw [← mem_entries_iff, filter_eq_some_iff, ← mem_entries_iff]
  exact mem_filter

/-- Inserting unless present leaves what is found, and fills in what is not. -/
theorem lookup_orInsert (map : HashMap K V) (key other : K) (value : V) :
    (map.orInsert key value).lookup other =
      (map.lookup other).or (if other = key then some value else none) := by
  unfold orInsert
  by_cases same : other = key
  · subst same
    cases found : map.lookup other with
    | none => simp
    | some old => simp [found]
  · cases found : map.lookup key with
    | none => simp [same, AList.lookup_insert_ne same]
    | some old => simp [same]

theorem size_put_of_none (absent : map.lookup key = none) (value : V) :
    (map.put key value).size = map.size + 1 := by
  rw [size, entries_put_of_none absent, length_cons, size]

theorem size_put_of_some {old : V} (present : map.lookup key = some old) (value : V) :
    (map.put key value).size = map.size := by
  rw [size, entries_put_of_some present, length_map, size]

theorem size_put_le (map : HashMap K V) (key : K) (value : V) :
    (map.put key value).size ≤ map.size + 1 := by
  cases found : map.lookup key with
  | none => rw [size_put_of_none found]
  | some old =>
    rw [size_put_of_some found]
    exact Nat.le_succ _

theorem size_modify (map : HashMap K V) (key : K) (f : V → V) :
    (map.modify key f).size = map.size := by
  rw [size, entries_modify, length_map, size]

theorem size_erase_le (map : HashMap K V) (key : K) : size (map.erase key) ≤ map.size :=
  (kerase_sublist key map.entries).length_le

omit [DecidableEq K] in
theorem size_retain_le (map : HashMap K V) (keep : K → V → Bool) :
    (map.retain keep).size ≤ map.size :=
  length_filter_le _ map.entries

section Values

variable {P : K → V → Prop}

variable (all : ∀ k v, map.lookup k = some v → P k v)

include all

/-- A property of all values survives a write of a value that has it. -/
theorem forall_put (own : P key value) : ∀ k v, (map.put key value).lookup k = some v → P k v := by
  intro k v stored
  by_cases same : k = key
  · subst same
    rw [lookup_put] at stored
    rwa [← some.inj stored]
  · rw [lookup_put_ne _ same] at stored
    exact all k v stored

theorem forall_modify {f : V → V} (own : ∀ v, map.lookup key = some v → P key (f v)) :
    ∀ k v, (map.modify key f).lookup k = some v → P k v := by
  intro k v stored
  by_cases same : k = key
  · subst same
    rw [lookup_modify] at stored
    obtain ⟨old, found, rfl⟩ := map_eq_some_iff.mp stored
    exact own old found
  · rw [lookup_modify_ne _ same] at stored
    exact all k v stored

theorem forall_erase : ∀ k v, (map.erase key).lookup k = some v → P k v := by
  intro k v stored
  by_cases same : k = key
  · subst same
    rw [AList.lookup_erase] at stored
    cases stored
  · rw [AList.lookup_erase_ne same] at stored
    exact all k v stored

end Values

variable {e : Sigma fun _ : K => V}

/-- Every entry of an overwritten map is the written one or an old one. -/
theorem mem_entries_put (member : e ∈ (map.put key value).entries) :
    e = ⟨key, value⟩ ∨ e ∈ map.entries ∧ e.1 ≠ key := by
  obtain ⟨other, found⟩ := e
  have looked := mem_entries_iff.mp member
  by_cases same : other = key
  · subst same
    rw [lookup_put] at looked
    exact .inl (by rw [some.inj looked])
  · rw [lookup_put_ne map same] at looked
    exact .inr ⟨mem_entries_iff.mpr looked, same⟩

theorem mem_entries_erase (member : e ∈ (map.erase key).entries) : e ∈ map.entries ∧ e.1 ≠ key := by
  obtain ⟨other, found⟩ := e
  have looked := mem_entries_iff.mp member
  by_cases same : other = key
  · subst same
    rw [AList.lookup_erase] at looked
    cases looked
  · rw [AList.lookup_erase_ne same] at looked
    exact ⟨mem_entries_iff.mpr looked, same⟩

/-- A filter that the removed entry does not pass does not see the removal. -/
theorem filter_entries_erase {p : (Sigma fun _ : K => V) → Bool} (map : HashMap K V)
    (fails : ∀ value, p ⟨key, value⟩ = false) :
    (map.erase key).entries.filter p = map.entries.filter p := by
  change (map.entries.kerase key).filter p = _
  by_cases present : key ∈ map.entries.keys
  · obtain ⟨value, front, back, _, split, erased⟩ := exists_of_kerase present
    rw [erased, split, filter_append, filter_append, filter_cons, fails value]
    rfl
  · rw [kerase_of_notMem_keys present]

variable {pairs : List (K × V)}

theorem lookup_foldl_put (map : HashMap K V) (agree : ∀ pair ∈ pairs, pair.1 = key → pair.2 = value)
    (present : map.lookup key = some value ∨ key ∈ pairs.map Prod.fst) :
    (pairs.foldl (fun map pair => map.put pair.1 pair.2) map).lookup key = some value := by
  induction pairs generalizing map with
  | nil => simpa using present
  | cons pair pairs ih =>
    rw [foldl_cons]
    apply ih
    · intro other member same
      exact agree other (mem_cons_of_mem _ member) same
    · by_cases same : key = pair.1
      · left
        rw [same, lookup_put, agree pair mem_cons_self same.symm]
      · rw [lookup_put_ne map same]
        simpa [same] using present

/-- Collecting pairs loses none that agrees with the others under its key. -/
theorem lookup_ofPairs {pair : K × V} (member : pair ∈ pairs)
    (agree : ∀ other ∈ pairs, other.1 = pair.1 → other.2 = pair.2) :
    (ofPairs pairs).lookup pair.1 = some pair.2 :=
  lookup_foldl_put ∅ agree (.inr (mem_map_of_mem member))

theorem of_lookup_foldl_put
    (found : (pairs.foldl (fun map pair => map.put pair.1 pair.2) map).lookup key = some value) :
    map.lookup key = some value ∨ (key, value) ∈ pairs := by
  induction pairs generalizing map with
  | nil => exact .inl found
  | cons pair pairs ih =>
    rcases ih found with before | later
    · by_cases same : key = pair.1
      · subst same
        rw [lookup_put] at before
        cases before
        exact .inr mem_cons_self
      · rw [lookup_put_ne map same] at before
        exact .inl before
    · exact .inr (mem_cons_of_mem _ later)

/-- Collecting pairs adds none. -/
theorem mem_of_lookup_ofPairs (found : (ofPairs pairs).lookup key = some value) :
    (key, value) ∈ pairs := by
  rcases of_lookup_foldl_put found with before | listed
  · cases before
  · exact listed

theorem lookup_putBy (keyOf : V → K) (values : List V) (map : HashMap K V) (key : K) :
    (∃ value ∈ values, keyOf value = key ∧ (map.putBy keyOf values).lookup key = some value) ∨
      (∀ value ∈ values, keyOf value ≠ key) ∧
        (map.putBy keyOf values).lookup key = map.lookup key := by
  induction values generalizing map with
  | nil => exact .inr ⟨by simp, rfl⟩
  | cons value values ih =>
    rw [putBy, foldl_cons, ← putBy]
    rcases ih (map.put (keyOf value) value) with ⟨later, listed, same, found⟩ | ⟨others, found⟩
    · exact .inl ⟨later, mem_cons_of_mem _ listed, same, found⟩
    · by_cases same : keyOf value = key
      · refine .inl ⟨value, mem_cons_self, same, ?_⟩
        rw [found, same, lookup_put]
      · refine .inr ⟨forall_mem_cons.mpr ⟨same, others⟩, ?_⟩
        rw [found, lookup_put_ne map (Ne.symm same)]

variable {values : List V}

theorem lookup_putBy_of_mem (keyOf : V → K) (map : HashMap K V) (listed : value ∈ values) :
    ∃ found ∈ values, keyOf found = keyOf value ∧
      (map.putBy keyOf values).lookup (keyOf value) = some found :=
  (lookup_putBy keyOf values map (keyOf value)).resolve_right fun none =>
    none.1 value listed rfl

theorem of_lookup_putBy_empty {keyOf : V → K}
    (stored : (putBy keyOf values ∅).lookup key = some value) :
    value ∈ values ∧ keyOf value = key := by
  rcases lookup_putBy keyOf values ∅ key with ⟨found, listed, same, looked⟩ | ⟨_, looked⟩
  · cases looked.symm.trans stored
    exact ⟨listed, same⟩
  · rw [looked] at stored
    cases stored

theorem lookup_eraseAll {keys : List K} (map : HashMap K V) (other : key ∉ keys) :
    (map.eraseAll keys).lookup key = map.lookup key := by
  induction keys generalizing map with
  | nil => rfl
  | cons first keys ih =>
    rw [mem_cons, not_or] at other
    rw [eraseAll, foldl_cons, ← eraseAll, ih _ other.2, AList.lookup_erase_ne other.1]

end HashMap
