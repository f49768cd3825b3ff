import Mathlib.Data.List.Pairwise
import Mathlib.Data.List.Sort
import Mathlib.Order.Basic
import Mathlib.Tactic.Common

/-!
# Stable sorting by a key

`sortDescending` lists pairs from the largest key to the smallest, and keeps the
order of pairs with equal keys. It is mathlib's `insertionSort`, which is stable
and reduces by evaluation, so any other stable sort computes the same list.

When the keys are distinct the result depends only on the set of pairs and not
on the order they came in. When they are not, the order of ties is that of the
input, and changing the payload of one pair does not move any pair.
-/

instance int64LinearOrder : LinearOrder Int64 where
  le_refl a := Int64.le_iff_toInt_le.mpr (le_refl _)
  le_trans a b c hab hbc := Int64.le_iff_toInt_le.mpr
    ((Int64.le_iff_toInt_le.mp hab).trans (Int64.le_iff_toInt_le.mp hbc))
  le_antisymm a b hab hba := Int64.toInt_inj.mp
    (le_antisymm (Int64.le_iff_toInt_le.mp hab) (Int64.le_iff_toInt_le.mp hba))
  le_total a b := by
    simp only [Int64.le_iff_toInt_le]
    exact le_total _ _
  lt_iff_le_not_ge a b := by
    simp only [Int64.le_iff_toInt_le, Int64.lt_iff_toInt_lt]
    exact lt_iff_le_not_ge
  toDecidableLE := inferInstance
  toDecidableLT := inferInstance

namespace Ranking

variable {κ α β : Type*} [LinearOrder κ]

def Descends (a b : κ × α) : Prop := b.1 ≤ a.1

instance : DecidableRel (Descends : κ × α → κ × α → Prop) :=
  fun a b => inferInstanceAs (Decidable (b.1 ≤ a.1))

instance : Std.Total (Descends : κ × α → κ × α → Prop) := ⟨fun a b => le_total b.1 a.1⟩

instance : IsTrans (κ × α) Descends := ⟨fun _ _ _ hab hbc => le_trans hbc hab⟩

/-- Stable sort from the largest key to the smallest. -/
def sortDescending (pairs : List (κ × α)) : List (κ × α) := pairs.insertionSort Descends

theorem sortDescending_perm (pairs : List (κ × α)) : (sortDescending pairs).Perm pairs :=
  List.perm_insertionSort Descends pairs

theorem sortDescending_pairwise (pairs : List (κ × α)) : (sortDescending pairs).Pairwise Descends :=
  List.pairwise_insertionSort Descends pairs

variable {pairs : List (κ × α)}

@[simp] theorem mem_sortDescending {pair : κ × α} : pair ∈ sortDescending pairs ↔ pair ∈ pairs :=
  (sortDescending_perm pairs).mem_iff

/-- A strictly descending list is the sorted form of any rearrangement of it. -/
theorem sortDescending_eq_of_perm {pairs sorted : List (κ × α)} (perm : sorted.Perm pairs)
    (strict : sorted.Pairwise fun a b => b.1 < a.1) : sortDescending pairs = sorted := by
  have symmetric : Std.Symm fun a b : κ × α => a.1 ≠ b.1 := ⟨fun _ _ => Ne.symm⟩
  have separated := (strict.imp (fun h => h.ne') : sorted.Pairwise fun a b => a.1 ≠ b.1).forall
  apply List.Perm.eq_of_pairwise _ (sortDescending_pairwise pairs)
    (strict.imp fun h => le_of_lt h) ((sortDescending_perm pairs).trans perm.symm)
  intro a b ha hb hab hba
  by_contra ne
  exact separated (perm.mem_iff.mpr (mem_sortDescending.mp ha)) hb ne (le_antisymm hba hab)

/-- Distinct keys are listed strictly. -/
theorem sortDescending_strict (nodup : (pairs.map Prod.fst).Nodup) :
    (sortDescending pairs).Pairwise fun a b => b.1 < a.1 := by
  have keys : (sortDescending pairs).Pairwise fun a b => a.1 ≠ b.1 :=
    List.pairwise_map.mp (((sortDescending_perm pairs).map Prod.fst).nodup_iff.mpr nodup)
  exact (keys.and (sortDescending_pairwise pairs)).imp fun h => lt_of_le_of_ne h.2 h.1.symm

/-- With distinct keys the input order does not matter. -/
theorem sortDescending_congr {pairs pairs' : List (κ × α)} (perm : pairs.Perm pairs')
    (nodup : (pairs.map Prod.fst).Nodup) : sortDescending pairs = sortDescending pairs' :=
  (sortDescending_eq_of_perm ((sortDescending_perm pairs).trans perm)
    (sortDescending_strict nodup)).symm

def sortDescendingOn (key : β → κ) (xs : List β) : List β :=
  xs.insertionSort fun a b => key b ≤ key a

variable (key : β → κ)

theorem sortDescendingOn_perm (xs : List β) : (sortDescendingOn key xs).Perm xs :=
  List.perm_insertionSort _ xs

/-- Sorting pairs made from elements only looks at the keys, so two payloads of
the same elements are sorted in the same way. -/
theorem sortDescending_map (payload : β → α) (xs : List β) :
    sortDescending (xs.map fun x => (key x, payload x)) =
      (sortDescendingOn key xs).map fun x => (key x, payload x) :=
  (List.map_insertionSort _ Descends _ xs fun _ _ _ _ => Iff.rfl).symm

theorem sortDescendingOn_pairwise (xs : List β) :
    (sortDescendingOn key xs).Pairwise fun a b => key b ≤ key a := by
  exact List.pairwise_insertionSort _ xs

/-- Changing elements without touching their keys does not move them. -/
theorem sortDescendingOn_map {key : β → κ} {f : β → β} (keeps : ∀ x, key (f x) = key x)
    (xs : List β) : sortDescendingOn key (xs.map f) = (sortDescendingOn key xs).map f := by
  refine (List.map_insertionSort _ _ f xs ?_).symm
  intro a _ b _
  rw [keeps, keeps]

/-- The list holds exactly the elements with `P`, from the largest key to the
smallest. -/
def Enumerates (key : β → κ) (P : β → Prop) (xs : List β) : Prop :=
  (∀ x, x ∈ xs ↔ P x) ∧ xs.Pairwise fun a b => key b < key a

/-- Sorting elements with distinct keys enumerates them. -/
theorem sortDescendingOn_enumerates {key : β → κ} {P : β → Prop} {xs : List β}
    (members : ∀ x, x ∈ xs ↔ P x) (distinct : xs.Pairwise fun a b => key a ≠ key b) :
    Enumerates key P (sortDescendingOn key xs) := by
  refine ⟨fun x => (sortDescendingOn_perm key xs).mem_iff.trans (members x), ?_⟩
  have separated : (sortDescendingOn key xs).Pairwise fun a b => key a ≠ key b :=
    (sortDescendingOn_perm key xs).symm.pairwise distinct fun h => h.symm
  have sorted := sortDescendingOn_pairwise key xs
  exact (separated.and sorted).imp fun h => lt_of_le_of_ne h.2 h.1.symm

/-- A new element is sorted in between the others, which stay in order. -/
theorem sortDescendingOn_cons_split (x : β) (xs : List β) :
    ∃ lower upper, sortDescendingOn key (x :: xs) = lower ++ x :: upper ∧
      sortDescendingOn key xs = lower ++ upper := by
  refine ⟨_, _, List.insertionSort_cons_eq_take_drop _ x xs, ?_⟩
  exact (List.takeWhile_append_dropWhile).symm

end Ranking
