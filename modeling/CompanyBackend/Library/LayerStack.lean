import Mathlib.Order.Basic
import Mathlib.Data.List.Forall2
import Mathlib.Tactic.Common

/-!
# Stacks of optional writes

A layer either writes a value or stays silent. Resolving a stack replays the
layers in order over a base value, so the last layer that writes decides the
result. Nothing here knows what the values mean: the type of values is
arbitrary, and only the monotonicity results ask for an order on it.

`LastSays` is the declarative reading of a stack. `resolve_eq_iff` identifies it
with the replay, so a specification can speak about the last writer while the
implementation folds over a list.
-/

namespace LayerStack

variable {α β : Type*}

/-- Replay the layers in order. A silent layer keeps the value below it. -/
def resolve (base : α) (layers : List (Option α)) : α :=
  layers.foldl (fun value layer => layer.getD value) base

@[simp] theorem resolve_nil (base : α) : resolve base [] = base := rfl

@[simp] theorem resolve_cons (base : α) (layer : Option α) (layers : List (Option α)) :
    resolve base (layer :: layers) = resolve (layer.getD base) layers := rfl

@[simp] theorem resolve_append (base : α) (lower upper : List (Option α)) :
    resolve base (lower ++ upper) = resolve (resolve base lower) upper :=
  List.foldl_append

def Silent (layers : List (Option α)) : Prop := ∀ layer ∈ layers, layer = none

@[simp] theorem silent_nil : Silent ([] : List (Option α)) := by
  intro layer member
  cases member

variable {layers : List (Option α)} {layer : Option α}

@[simp] theorem silent_cons : Silent (layer :: layers) ↔ layer = none ∧ Silent layers := by
  simp [Silent]

instance (layers : List (Option α)) [DecidableEq α] : Decidable (Silent layers) :=
  inferInstanceAs (Decidable (∀ layer ∈ layers, layer = none))

theorem resolve_of_silent (silent : Silent layers) (base : α) : resolve base layers = base := by
  induction layers generalizing base with
  | nil => rfl
  | cons layer layers ih =>
    obtain ⟨rfl, rest⟩ := silent_cons.mp silent
    exact ih rest base

/-- The last layer that says anything says `value`. -/
def LastSays (layers : List (Option α)) (value : α) : Prop :=
  ∃ earlier later, layers = earlier ++ some value :: later ∧ Silent later

variable {value : α}

theorem LastSays.cons (said : LastSays layers value) (layer : Option α) :
    LastSays (layer :: layers) value := by
  obtain ⟨earlier, later, rfl, silent⟩ := said
  exact ⟨layer :: earlier, later, rfl, silent⟩

/-- The first layer decides exactly when everything above it is silent. -/
theorem lastSays_cons_iff : LastSays (layer :: layers) value ↔
      LastSays layers value ∨ layer = some value ∧ Silent layers := by
  constructor
  · rintro ⟨earlier, later, split, silent⟩
    cases earlier with
    | nil =>
      obtain ⟨rfl, rfl⟩ := List.cons.inj split
      exact .inr ⟨rfl, silent⟩
    | cons first earlier =>
      obtain ⟨rfl, rfl⟩ := List.cons.inj split
      exact .inl ⟨earlier, later, rfl, silent⟩
  · rintro (said | ⟨rfl, silent⟩)
    · exact said.cons layer
    · exact ⟨[], layers, rfl, silent⟩

theorem silent_or_lastSays (layers : List (Option α)) :
    Silent layers ∨ ∃ value, LastSays layers value := by
  induction layers with
  | nil => exact .inl silent_nil
  | cons layer layers ih =>
    rcases ih with silent | ⟨value, said⟩
    · cases layer with
      | none => exact .inl (silent_cons.mpr ⟨rfl, silent⟩)
      | some value => exact .inr ⟨value, lastSays_cons_iff.mpr (.inr ⟨rfl, silent⟩)⟩
    · exact .inr ⟨value, said.cons layer⟩

/-- What the last writer says is what the replay returns, whatever the base. -/
theorem LastSays.resolve_eq (said : LastSays layers value) (base : α) :
    resolve base layers = value := by
  obtain ⟨earlier, later, rfl, silent⟩ := said
  simp [resolve_of_silent silent]

/-- Replaying over a base is the same as asking for the last writer of the stack
whose bottom layer writes that base. -/
theorem resolve_eq_iff {base value : α} :
    resolve base layers = value ↔ LastSays (some base :: layers) value := by
  constructor
  · intro resolved
    rcases silent_or_lastSays layers with silent | ⟨other, said⟩
    · rw [resolve_of_silent silent] at resolved
      exact lastSays_cons_iff.mpr (.inr ⟨by rw [resolved], silent⟩)
    · rw [said.resolve_eq base] at resolved
      exact resolved ▸ said.cons _
  · intro said
    exact said.resolve_eq base

/-- A suffix that writes hides whatever stands below it. -/
theorem resolve_eq_of_not_silent (writes : ¬ Silent layers) (base other : α) :
    resolve base layers = resolve other layers := by
  rcases silent_or_lastSays layers with silent | ⟨value, said⟩
  · exact absurd silent writes
  · rw [said.resolve_eq base, said.resolve_eq other]

section Order

variable [Preorder α]

/-- One layer never writes more than another, whatever ordered values they are
placed over. On truth values this is the order deny, silent, grant. -/
def Below (layer layer' : Option α) : Prop :=
  ∀ ⦃value value' : α⦄, value ≤ value' → layer.getD value ≤ layer'.getD value'

theorem Below.refl (layer : Option α) : Below layer layer := by
  intro value value' le
  cases layer with
  | none => exact le
  | some written => exact le_refl written

/-- Weakening layers pointwise weakens the whole stack. -/
theorem resolve_mono {base base' : α} {layers layers' : List (Option α)}
    (below : List.Forall₂ Below layers layers') (le : base ≤ base') :
    resolve base layers ≤ resolve base' layers' := by
  induction below generalizing base base' with
  | nil => exact le
  | cons head _ ih => exact ih (head le)

/-- The same law for two stacks read off one list of writers. -/
theorem resolve_map_mono {base base' : α} {writers : List β} {f g : β → Option α}
    (below : ∀ writer ∈ writers, Below (f writer) (g writer)) (le : base ≤ base') :
    resolve base (writers.map f) ≤ resolve base' (writers.map g) := by
  apply resolve_mono _ le
  rw [List.forall₂_map_left_iff, List.forall₂_map_right_iff, List.forall₂_same]
  exact below

end Order

end LayerStack
