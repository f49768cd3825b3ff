import CompanyBackend.Library.HashMap

/-!
# Collections of documents with their own keys

A collection stores each document under the key that the document itself carries.
The key is part of the type, so no update can separate a document from its key: an
update function has to come with the proof that it keeps the key.
-/

/-- Documents of type `V`, each stored under its own key. -/
structure Collection (K V : Type) (key : V → K) where
  rows : HashMap K V
  keyed : ∀ e ∈ rows.entries, key e.2 = e.1

/-- What every edit keeps, a list of edits keeps. -/
theorem read_foldl_edit {V E R : Type} (read : V → R) {edit : V → E → V}
    (keeps : ∀ v e, read (edit v e) = read v) (edits : List E) (v : V) :
    read (edits.foldl edit v) = read v := by
  induction edits generalizing v with
  | nil => rfl
  | cons e edits ih => rw [List.foldl_cons, ih, keeps]

namespace Collection

open List HashMap

variable {K V : Type} [DecidableEq K] {key : V → K}

def empty : Collection K V key where
  rows := ∅
  keyed := by simp

def find (c : Collection K V key) (k : K) : Option V := c.rows.lookup k

/-- The documents in the order a scan of the collection visits them. -/
def documents (c : Collection K V key) : List V := c.rows.values

variable {v : V} {c : Collection K V key}

theorem key_of_find {k : K} (found : c.find k = some v) : key v = k :=
  c.keyed ⟨k, v⟩ (mem_entries_iff.mpr found)

theorem mem_documents : v ∈ c.documents ↔ c.find (key v) = some v := by
  simp only [documents, values, mem_map]
  constructor
  · rintro ⟨e, member, rfl⟩
    rw [find, ← mem_entries_iff, c.keyed e member]
    exact member
  · intro found
    exact ⟨⟨key v, v⟩, mem_entries_iff.mpr found, rfl⟩

section

variable (c : Collection K V key) (v : V)

omit [DecidableEq K] in
/-- No two documents have the same key. -/
theorem nodup_keys : (c.documents.map key).Nodup := by
  have keys : c.documents.map key = c.rows.entries.map Sigma.fst := by
    rw [documents, values, map_map]
    exact map_congr_left c.keyed
  rw [keys]
  exact c.rows.nodupKeys

def update (k : K) (f : V → V) (keeps : ∀ v, key (f v) = key v) : Collection K V key where
  rows := c.rows.modify k f
  keyed := by
    intro e member
    rw [HashMap.entries_modify, List.mem_map] at member
    obtain ⟨e', old, rfl⟩ := member
    split
    · next same =>
      rw [same]
      exact (keeps e'.2).trans (c.keyed e' old)
    · exact c.keyed e' old

def updateMany (f : V → V) (keeps : ∀ v, key (f v) = key v) : Collection K V key where
  rows := c.rows.mapValues f
  keyed := by
    intro e member
    obtain ⟨e', old, rfl⟩ := List.mem_map.mp member
    exact (keeps e'.2).trans (c.keyed e' old)

/-- Change the first document that a scan finds to satisfy the filter. -/
def updateFirst (filter : V → Bool) (f : V → V)
    (keeps : ∀ v, key (f v) = key v) : Collection K V key :=
  match c.documents.find? filter with
  | some v => c.update (key v) f keeps
  | none => c

def insert : Collection K V key where
  rows := c.rows.put (key v) v
  keyed := by
    intro e member
    rcases HashMap.mem_entries_put member with rfl | ⟨old, _⟩
    · rfl
    · exact c.keyed e old

def erase (k : K) : Collection K V key where
  rows := c.rows.erase k
  keyed e member := c.keyed e (HashMap.mem_entries_erase member).1

def retain (keep : V → Bool) : Collection K V key where
  rows := c.rows.retain fun _ => keep
  keyed e member := c.keyed e (List.mem_filter.mp member).1

/-- Edit the document under the key of `v`, or store `v`, edited, where there is
none. -/
def upsert (f : V → V) : Collection K V key :=
  c.insert (f ((c.find (key v)).getD v))

end

/-- Collect documents, a later one replacing an earlier one with its key. -/
def ofDocuments (documents : List V) : Collection K V key := documents.foldl insert empty

variable {k k' : K} {f : V → V} {keeps : ∀ v, key (f v) = key v}

@[simp] theorem find_update : (c.update k f keeps).find k = (c.find k).map f :=
  lookup_modify c.rows k f

theorem find_update_ne (ne : k' ≠ k) : (c.update k f keeps).find k' = c.find k' :=
  lookup_modify_ne c.rows ne f

@[simp] theorem find_updateMany : (c.updateMany f keeps).find k = (c.find k).map f :=
  lookup_mapValues c.rows f k

@[simp] theorem find_insert : (c.insert v).find (key v) = some v :=
  lookup_put c.rows (key v) v

theorem find_insert_ne (ne : k ≠ key v) : (c.insert v).find k = c.find k :=
  lookup_put_ne c.rows ne v

@[simp] theorem find_erase : (c.erase k).find k = none := AList.lookup_erase k c.rows

theorem find_erase_ne (ne : k' ≠ k) : (c.erase k).find k' = c.find k' :=
  AList.lookup_erase_ne ne

@[simp] theorem find_retain {keep : V → Bool} : (c.retain keep).find k = (c.find k).filter keep :=
  lookup_retain c.rows (fun _ => keep) k

omit [DecidableEq K] in
theorem documents_retain (keep : V → Bool) : (c.retain keep).documents = c.documents.filter keep :=
  (filter_map ..).symm

/-- A property of all documents survives an update that keeps it. -/
theorem forall_documents_update {P : V → Prop} (all : ∀ v ∈ c.documents, P v)
    (kept : ∀ v, P v → P (f v)) : ∀ v ∈ (c.update k f keeps).documents, P v := by
  intro v member
  have found := mem_documents.mp member
  by_cases same : key v = k
  · rw [same, find_update, Option.map_eq_some_iff] at found
    obtain ⟨old, stored, rfl⟩ := found
    refine kept old (all old (mem_documents.mpr ?_))
    rw [key_of_find stored, stored]
  · rw [find_update_ne same] at found
    exact all v (mem_documents.mpr found)

theorem documents_update :
    (c.update k f keeps).documents = c.documents.map fun v => if key v = k then f v else v := by
  rw [documents, values, update, entries_modify, documents, values, map_map, map_map]
  refine map_congr_left ?_
  intro e listed
  simp only [Function.comp_apply, c.keyed e listed]
  by_cases same : k = e.1
  · simp [same]
  · simp [same, Ne.symm same]

/-- Among documents with different keys, an edit changes the count of a property
by one document. -/
theorem countP_map_edit {documents : List V} (p : V → Bool)
    (nodup : (documents.map key).Nodup) (listed : v ∈ documents) :
    (documents.map fun w => if key w = key v then f w else w).countP p + (if p v then 1 else 0) =
      documents.countP p + if p (f v) then 1 else 0 := by
  induction documents with
  | nil => cases listed
  | cons w documents ih =>
    obtain ⟨absent, rest⟩ := nodup_cons.mp nodup
    by_cases same : key w = key v
    · have here : w = v := by
        rcases mem_cons.mp listed with equal | later
        · exact equal.symm
        · exact absurd (same ▸ mem_map_of_mem later) absent
      have others : (documents.map fun w => if key w = key v then f w else w) = documents := by
        refine (map_congr_left ?_).trans (map_id' documents)
        intro other member
        have apart : key other ≠ key v := by
          intro equal
          exact absent ((same.trans equal.symm) ▸ mem_map_of_mem member)
        exact if_neg apart
      rw [map_cons, if_pos same, others, countP_cons, countP_cons, here]
      omega
    · have later : v ∈ documents := by
        rcases mem_cons.mp listed with equal | later
        · exact absurd (congrArg key equal.symm) same
        · exact later
      rw [map_cons, if_neg same, countP_cons, countP_cons]
      have counted := ih rest later
      omega

theorem countP_update (p : V → Bool) (found : c.find k = some v) :
    (c.update k f keeps).documents.countP p + (if p v then 1 else 0) =
      c.documents.countP p + if p (f v) then 1 else 0 := by
  have sameKey := key_of_find found
  have listed : v ∈ c.documents := mem_documents.mpr (by rw [sameKey, found])
  rw [documents_update, ← sameKey]
  exact countP_map_edit p c.nodup_keys listed

def Distinct {H : Type} (view : V → H) (c : Collection K V key) : Prop :=
  ∀ v ∈ c.documents, ∀ w ∈ c.documents, view v = view w → key v = key w

section Distinct

variable {H : Type} {view : V → H}

omit [DecidableEq K] in
theorem distinct_empty : Distinct view (empty : Collection K V key) := by
  intro v listed
  simp [documents, values, empty] at listed

variable (distinct : Distinct view c)

include distinct

/-- One document has changed, and looks like no other. -/
theorem Distinct.of_find_ne {c' : Collection K V key}
    (own : c'.find k = some v) (rest : ∀ k', k' ≠ k → c'.find k' = c.find k')
    (apart : ∀ w ∈ c.documents, key w ≠ k → view w ≠ view v) : Distinct view c' := by
  have old : ∀ w ∈ c'.documents, key w ≠ k → w ∈ c.documents := by
    intro w listed ne
    rw [mem_documents] at listed ⊢
    rwa [← rest _ ne]
  have changed : ∀ w ∈ c'.documents, key w = k → w = v := by
    intro w listed same
    rw [mem_documents, same, own] at listed
    exact (Option.some.inj listed).symm
  intro w listed w' listed' looks
  by_cases same : key w = k <;> by_cases same' : key w' = k
  · rw [same, same']
  · rw [changed w listed same] at looks
    exact absurd looks.symm (apart w' (old w' listed' same') same')
  · rw [changed w' listed' same'] at looks
    exact absurd looks (apart w (old w listed same) same)
  · exact distinct w (old w listed same) w' (old w' listed' same') looks

theorem Distinct.insert (apart : ∀ w ∈ c.documents, view w ≠ view v) : Distinct view (c.insert v) :=
  distinct.of_find_ne find_insert (fun _ ne => find_insert_ne ne) fun w listed _ => apart w listed

theorem Distinct.update (found : c.find k = some v)
    (apart : ∀ w ∈ c.documents, key w ≠ k → view w ≠ view (f v)) :
    Distinct view (c.update k f keeps) := by
  have own : (c.update k f keeps).find k = some (f v) := by
    rw [find_update, found, Option.map_some]
  exact distinct.of_find_ne own (fun _ ne => find_update_ne ne) apart

end Distinct

variable {filter : V → Bool}

theorem find_updateFirst : (c.updateFirst filter f keeps).find k =
      (c.find k).map fun v => if (c.documents.find? filter).map key = some k then f v else v := by
  rw [updateFirst]
  cases c.documents.find? filter with
  | none => simp
  | some target =>
    by_cases same : k = key target
    · subst same
      simp
    · simp [find_update_ne same, Ne.symm same]

/-- A scan that finds the key finds the document under it. -/
theorem find?_documents_key (found : c.find k = some v) :
    (c.documents.find? filter).map key = some k ↔ c.documents.find? filter = some v := by
  rw [Option.map_eq_some_iff]
  constructor
  · rintro ⟨target, scanned, rfl⟩
    rw [scanned, ← mem_documents.mp (mem_of_find?_eq_some scanned), found]
  · intro scanned
    exact ⟨v, scanned, key_of_find found⟩

end Collection
