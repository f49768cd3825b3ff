import Mathlib.Tactic.Common

/-!
# Requests against a store

A request runs on a store, ends with a result or an error, and keeps whatever it
wrote before it failed. `Outcome` is its weakest precondition: the postcondition
sees the result and the store that is left, whether the request succeeded or not.

The rules follow a request from its first action to its last. A read that fails and
a check that is not met end it with the store untouched since the last write. An
action that only reads is passed over without looking inside.
-/

/-- A computation on a store of type `σ` that may fail with `ε`. -/
def Request (σ ε α : Type) : Type := σ → Except ε α × σ

namespace Request

variable {σ ε α β : Type}

instance : Monad (Request σ ε) where
  pure a := fun s => (.ok a, s)
  bind x f := fun s =>
    match x s with
    | (.ok a, s') => f a s'
    | (.error e, s') => (.error e, s')

def fail (e : ε) : Request σ ε α := fun s => (.error e, s)

/-- Read from the store. The read itself may fail. -/
def attempt (f : σ → Except ε α) : Request σ ε α := fun s => (f s, s)

def ensure (condition : Bool) (e : ε) : Request σ ε Unit :=
  if condition then pure () else fail e

def onlyIf (condition : Bool) (action : Request σ ε Unit) : Request σ ε Unit :=
  if condition then action else pure ()

/-- Change the store. The change may be refused, and then nothing is written. -/
def write (f : σ → Except ε σ) : Request σ ε Unit := fun s =>
  match f s with
  | .ok s' => (.ok (), s')
  | .error e => (.error e, s)

/-- Go on with the result of an action, whether it succeeded or failed. -/
def result (x : Request σ ε α) : Request σ ε (Except ε α) := fun s =>
  let ran := x s
  (.ok ran.1, ran.2)

/-- Run an action for each element, in order, until one fails. -/
def forEach (action : α → Request σ ε Unit) : List α → Request σ ε Unit
  | [] => pure ()
  | x :: xs => do
    action x
    forEach action xs

/-- The result and the store left by the request satisfy the postcondition. -/
def Outcome (x : Request σ ε α) (s : σ) (Q : Except ε α → σ → Prop) : Prop := Q (x s).1 (x s).2

variable {s : σ} {x : Request σ ε α} {f : α → Request σ ε β} {Q : Except ε β → σ → Prop}

theorem Outcome.intro {Q : Except ε α → σ → Prop}
    (all : ∀ r s', x s = (r, s') → Q r s') : Outcome x s Q :=
  all _ _ rfl

variable {s' : σ} {r : Except ε α}

theorem Outcome.elim {Q : Except ε α → σ → Prop} (outcome : Outcome x s Q) (ran : x s = (r, s')) :
    Q r s' := by
  unfold Outcome at outcome
  rwa [ran] at outcome

theorem Outcome.mono {R R' : Except ε α → σ → Prop} (outcome : Outcome x s R)
    (weaker : ∀ r s', R r s' → R' r s') : Outcome x s R' :=
  weaker _ _ outcome

theorem exists_of_isOk (succeeds : (x s).1.isOk) : ∃ a, x s = (.ok a, (x s).2) := by
  cases ran : x s with
  | mk result s' =>
    cases result with
    | ok a => exact ⟨a, rfl⟩
    | error e =>
      rw [ran] at succeeds
      cases succeeds

variable {R : Except ε α → σ → Prop}

theorem bind_run : (x >>= f) s = match x s with
    | (.ok a, s') => f a s'
    | (.error e, s') => (.error e, s') :=
  rfl

/-- Sequential composition: a failure of the first action is the failure of
both. -/
theorem Outcome.bind (first : Outcome x s R) (success : ∀ a s', R (.ok a) s' → Outcome (f a) s' Q)
    (failure : ∀ e s', R (.error e) s' → Q (.error e) s') : Outcome (x >>= f) s Q := by
  unfold Outcome at first ⊢
  rw [bind_run]
  generalize x s = ran at first ⊢
  obtain ⟨r, s'⟩ := ran
  cases r with
  | ok a => exact success a s' first
  | error e => exact failure e s' first

/-- The action succeeds, with a value and a store of which `R` holds. -/
def Succeeds (R : α → σ → Prop) (r : Except ε α) (s : σ) : Prop := ∃ a, r = .ok a ∧ R a s

open Outcome List

theorem Outcome.succeeds_bind {R : α → σ → Prop} (first : Outcome x s (Succeeds R))
    (next : ∀ a s', R a s' → Outcome (f a) s' Q) : Outcome (x >>= f) s Q := by
  apply bind first
  · rintro a s' ⟨_, returned, held⟩
    cases returned
    exact next a s' held
  · rintro e s' ⟨_, returned, _⟩
    cases returned

theorem Outcome.succeeds_mono {R R' : α → σ → Prop} (first : Outcome x s (Succeeds R))
    (weaker : ∀ a s', R a s' → R' a s') : Outcome x s (Succeeds R') := by
  obtain ⟨a, returned, held⟩ := first
  exact ⟨a, returned, weaker a _ held⟩

variable {action : α → Request σ ε Unit}

open Request

/-- A loop keeps an invariant about the elements that it has gone through. -/
theorem Outcome.forEach {P : List α → σ → Prop} {xs : List α}
    (each : ∀ done a s, a ∈ xs → P done s →
      Outcome (action a) s (Succeeds fun _ s' => P (done ++ [a]) s'))
    {done : List α} (start : P done s) :
    Outcome (forEach action xs) s (Succeeds fun _ s' => P (done ++ xs) s') := by
  induction xs generalizing done s with
  | nil =>
    rw [append_nil]
    exact ⟨(), rfl, start⟩
  | cons a xs ih =>
    rw [forEach]
    apply succeeds_bind (each done a s mem_cons_self start)
    intro _ s' held
    have rest := ih (fun done b s member => each done b s (mem_cons_of_mem _ member)) held
    rwa [append_assoc, singleton_append] at rest

variable {xs : List α} {P : σ → Prop}

/-- A loop keeps what each of its actions keeps. -/
theorem Outcome.forEach_keeps
    (each : ∀ a s, a ∈ xs → P s → Outcome (action a) s (Succeeds fun _ s' => P s')) (start : P s) :
    Outcome (Request.forEach action xs) s (Succeeds fun _ s' => P s') :=
  @forEach σ ε α s action (fun _ s' => P s') xs (fun _ => each) [] start

/-- The action makes edits to the store, all of them where it succeeds and some
where it fails. -/
def Edits {δ : Type} (edit : σ → δ → σ) (steps : List δ) (s : σ) : Except ε α → σ → Prop
  | .ok _, s' => s' = steps.foldl edit s
  | .error _, s' => ∃ part ⊆ steps, s' = part.foldl edit s

variable {δ : Type} {edit : σ → δ → σ}

theorem Edits.exists_part {steps : List δ}
    (edits : Edits edit steps s r s') : ∃ part ⊆ steps, s' = part.foldl edit s := by
  cases r with
  | ok a => exact ⟨steps, Subset.refl _, edits⟩
  | error e => exact edits

/-- A loop makes the edits of its actions, where each finds what the edits
before it keep. -/
theorem Outcome.forEach_edits {steps : α → List δ} (kept : ∀ s step, P s → P (edit s step))
    (each : ∀ a s, P s → Outcome (action a) s (Edits edit (steps a) s)) (start : P s) :
    Outcome (Request.forEach action xs) s (Edits edit (xs.flatMap steps) s) := by
  induction xs generalizing s with
  | nil => exact (rfl : s = _)
  | cons a xs ih =>
    rw [Request.forEach, flatMap_cons]
    apply bind (each a s start)
    · intro _ s' edited
      have held : P s' := by
        rw [edited]
        exact foldlRecOn (steps a) edit start fun s held step _ => kept s step held
      refine (ih held).mono ?_
      intro r s'' rest
      rw [edited] at rest
      cases r with
      | ok _ => exact rest.trans foldl_append.symm
      | error _ =>
        obtain ⟨part, inside, rfl⟩ := rest
        have whole : steps a ++ part ⊆ steps a ++ xs.flatMap steps :=
          append_subset.mpr ⟨subset_append_left _ _, subset_append_of_subset_right _ inside⟩
        exact ⟨steps a ++ part, whole, foldl_append.symm⟩
    · rintro _ _ ⟨part, inside, rfl⟩
      exact ⟨part, subset_append_of_subset_left _ inside, rfl⟩

variable {a : α}

theorem Outcome.pure {Q : Except ε α → σ → Prop} (held : Q (.ok a) s) : Outcome (pure a) s Q := held

variable {e : ε}

theorem Outcome.fail {Q : Except ε α → σ → Prop} (held : Q (.error e) s) :
    Outcome (fail e) s Q := held

variable {g : σ → Except ε α}

theorem Outcome.attempt_bind (success : ∀ a, g s = .ok a → Outcome (f a) s Q)
    (failure : ∀ e, g s = .error e → Q (.error e) s) : Outcome (attempt g >>= f) s Q := by
  apply bind (R := fun r s' => s' = s ∧ g s = r) ⟨rfl, rfl⟩
  · rintro a _ ⟨rfl, read⟩
    exact success a read
  · rintro e _ ⟨rfl, read⟩
    exact failure e read

/-- A read that is known to succeed is passed over. -/
theorem Outcome.attempt_ok_bind (read : g s = .ok a)
    (rest : Outcome (f a) s Q) : Outcome (attempt g >>= f) s Q := by
  apply attempt_bind
  · intro b answered
    obtain rfl := Except.ok.inj (read.symm.trans answered)
    exact rest
  · intro e answered
    cases read.symm.trans answered

variable {h : δ → ε} {y : Except δ α}

theorem mapError_eq_ok : y.mapError h = .ok a ↔ y = .ok a := by
  cases y <;> simp [Except.mapError]

theorem mapError_eq_error : y.mapError h = .error e ↔ ∃ d, y = .error d ∧ h d = e := by
  cases y <;> simp [Except.mapError]

/-- A read whose errors are converted, and do not matter. -/
@[simp] theorem isOk_mapError (y : Except δ α) (h : δ → ε) : (y.mapError h).isOk = y.isOk := by
  cases y <;> rfl

theorem Outcome.attempt_mapError_bind {g : σ → Except δ α}
    (success : ∀ a, g s = .ok a → Outcome (f a) s Q) (failure : ∀ e, Q (.error e) s) :
    Outcome (attempt (fun s => (g s).mapError h) >>= f) s Q := by
  apply attempt_bind
  · intro a answered
    exact success a (mapError_eq_ok.mp answered)
  · intro e _
    exact failure e

variable {condition : Bool}

theorem Outcome.ensure_bind {f : Unit → Request σ ε β} (met : condition → Outcome (f ()) s Q)
    (refused : condition = false → Q (.error e) s) : Outcome (ensure condition e >>= f) s Q := by
  cases condition with
  | true => exact met rfl
  | false => exact refused rfl

theorem Outcome.write_bind {g : σ → Except ε σ} {f : Unit → Request σ ε β}
    (written : ∀ s', g s = .ok s' → Outcome (f ()) s' Q)
    (refused : ∀ e, g s = .error e → Q (.error e) s) : Outcome (write g >>= f) s Q := by
  apply bind (R := fun r s' => match r with
    | .ok _ => g s = .ok s'
    | .error e => s' = s ∧ g s = .error e)
  · unfold Outcome write
    cases accepted : g s with
    | ok s' => rfl
    | error e => exact ⟨rfl, rfl⟩
  · intro _ s' accepted
    exact written s' accepted
  · rintro e _ ⟨rfl, rejected⟩
    exact refused e rejected

theorem Outcome.result_bind {f : Except ε α → Request σ ε β} (first : Outcome x s R)
    (next : ∀ r s', R r s' → Outcome (f r) s' Q) : Outcome (result x >>= f) s Q :=
  next _ _ first

theorem Outcome.onlyIf {action : Request σ ε Unit} {Q : Except ε Unit → σ → Prop}
    (acts : condition → Outcome action s Q) (skips : condition = false → Q (.ok ()) s) :
    Outcome (onlyIf condition action) s Q := by
  cases condition with
  | true => exact acts rfl
  | false => exact skips rfl

/-- What follows an action that succeeds goes on with its result. -/
theorem bind_of_ok (first : x s = (.ok a, s')) : (x >>= f) s = f a s' := by
  rw [bind_run, first]

theorem bind_of_error (first : x s = (.error e, s')) : (x >>= f) s = (.error e, s') := by
  rw [bind_run, first]

theorem Outcome.ran_bind (first : x s = (.ok a, s')) (rest : Outcome (f a) s' Q) :
    Outcome (x >>= f) s Q := by
  unfold Outcome at rest ⊢
  rwa [bind_of_ok first]

variable {y : Request σ ε α}

/-- What follows an action sees its result and the store it leaves, and nothing
else. -/
theorem bind_eq_of_eq (same : x s = y s') : (x >>= f) s = (y >>= f) s' := by
  cases ran : y s' with
  | mk r s'' =>
    rw [ran] at same
    cases r with
    | ok a => rw [bind_of_ok same, bind_of_ok ran]
    | error e => rw [bind_of_error same, bind_of_error ran]

/-- Two compositions are the same if their parts are, at the state that each
part meets. -/
theorem bind_congr_at {g : α → Request σ ε β} (first : x s = y s)
    (rest : ∀ a s', x s = (.ok a, s') → f a s' = g a s') : (x >>= f) s = (y >>= g) s := by
  cases ran : x s with
  | mk r s' =>
    rw [ran] at first
    cases r with
    | ok a =>
      rw [bind_of_ok ran, bind_of_ok first.symm]
      exact rest a s' ran
    | error e => rw [bind_of_error ran, bind_of_error first.symm]

instance lawfulMonad : LawfulMonad (Request σ ε) := by
  refine LawfulMonad.mk' _ ?_ ?_ ?_
  · intro α x
    funext s
    cases ran : x s with
    | mk r s' =>
      cases r with
      | ok a => exact bind_of_ok ran
      | error e => exact bind_of_error ran
  · intro α β a f
    rfl
  · intro α β γ x f g
    funext s
    cases ran : x s with
    | mk r s' =>
      cases r with
      | ok a =>
        rw [bind_of_ok ran]
        exact bind_eq_of_eq (bind_of_ok ran)
      | error e =>
        rw [bind_of_error ran]
        exact bind_of_error (bind_of_error ran)

variable {b : β} {s'' : σ}

/-- A composition that succeeds has succeeded with its first action. -/
theorem of_bind_eq_ok (ran : (x >>= f) s = (.ok b, s'')) :
    ∃ a s', x s = (.ok a, s') ∧ f a s' = (.ok b, s'') := by
  have outcome : Outcome (x >>= f) s fun r s'' => ∀ b, r = .ok b →
      ∃ a s', x s = (.ok a, s') ∧ f a s' = (.ok b, s'') := by
    apply bind (R := fun r s' => x s = (r, s')) rfl
    · intro a s' first
      exact intro fun r s'' rest b same => ⟨a, s', first, same ▸ rest⟩
    · rintro e s' _ b ⟨⟩
  exact outcome.elim ran b rfl

theorem result_attempt_run (g : σ → Except ε α) (s : σ) : result (attempt g) s = (.ok (g s), s) :=
  rfl

/-- What an action has done whose result was taken. -/
theorem of_result_eq (ran : result x s = (.ok r, s')) : x s = (r, s') := by
  cases ran
  rfl

theorem ensure_bind_of_met {f : Unit → Request σ ε β} (met : condition) :
    (ensure condition e >>= f) s = f () s := by
  rw [met]
  rfl

/-- A composition that succeeds has passed the check at its start. -/
theorem of_ensure_bind_eq_ok {f : Unit → Request σ ε β}
    (ran : (ensure condition e >>= f) s = (.ok b, s')) : condition ∧ f () s = (.ok b, s') := by
  cases condition with
  | true => exact ⟨rfl, ran⟩
  | false =>
    obtain ⟨_, _, ⟨⟩, _⟩ := of_bind_eq_ok ran

/-- A loop that succeeds has succeeded up to every point. -/
theorem of_forEach_append {ys : List α} (ran : forEach action (xs ++ ys) s = (.ok (), s'')) :
    ∃ s', forEach action xs s = (.ok (), s') ∧
      forEach action ys s' = (.ok (), s'') := by
  induction xs generalizing s with
  | nil => exact ⟨s, rfl, ran⟩
  | cons x xs ih =>
    obtain ⟨_, s₁, first, rest⟩ := of_bind_eq_ok ran
    obtain ⟨s', done, last⟩ := ih rest
    exact ⟨s', (bind_of_ok first).trans done, last⟩

variable {g : α → Except ε β}

/-- A read of every element succeeds if each single one does. -/
theorem mapM_eq_ok {h : α → β} (each : ∀ a ∈ xs, g a = .ok (h a)) : xs.mapM g = .ok (xs.map h) := by
  induction xs with
  | nil => rfl
  | cons a xs ih =>
    rw [mapM_cons, each a mem_cons_self, ih fun b member => each b (mem_cons_of_mem _ member)]
    rfl

theorem bind_eq_ok {y : Except ε α} : y >>= g = .ok b ↔ ∃ a, y = .ok a ∧ g a = .ok b := by
  constructor
  · intro ran
    cases y with
    | error e => cases ran
    | ok a => exact ⟨a, rfl, ran⟩
  · rintro ⟨a, rfl, ran⟩
    exact ran

section Branches

variable {c : Prop} [Decidable c] {y z : Except ε Unit} {g : Unit → Except ε β}

/-- A check that is made on a condition: what comes after it has been
reached. -/
theorem of_ite_bind_eq_ok (ran : (if c then y >>= g else g ()) = .ok b) :
    (c → y = .ok ()) ∧ g () = .ok b := by
  split at ran
  · next met =>
    obtain ⟨_, passed, rest⟩ := bind_eq_ok.mp ran
    exact ⟨fun _ => passed, rest⟩
  · next unmet => exact ⟨fun met => absurd met unmet, ran⟩

/-- One of two checks is made, and either leads to what comes after. -/
theorem of_ite_both_eq_ok (ran : (if c then y >>= g else z >>= g) = .ok b) : g () = .ok b := by
  rw [← apply_ite (· >>= g)] at ran
  obtain ⟨_, _, rest⟩ := bind_eq_ok.mp ran
  exact rest

theorem of_ite_eq_ok {y z : Except ε β} (ran : (if c then y else z) = .ok b)
    (leads : y = .ok b → z = .ok b) : z = .ok b := by
  split at ran
  · exact leads ran
  · exact ran

end Branches

/-- Every value that a read of a list returns was read for one of its
elements. -/
theorem of_mapM_eq_ok {ys : List β} (ran : xs.mapM g = .ok ys) :
    ∀ b ∈ ys, ∃ a ∈ xs, g a = .ok b := by
  induction xs generalizing ys with
  | nil =>
    cases ran
    rintro _ ⟨⟩
  | cons a xs ih =>
    rw [mapM_cons] at ran
    obtain ⟨b, first, ran⟩ := bind_eq_ok.mp ran
    obtain ⟨ys', rest, ⟨⟩⟩ := bind_eq_ok.mp ran
    intro c listed
    rcases mem_cons.mp listed with rfl | later
    · exact ⟨a, mem_cons_self, first⟩
    · obtain ⟨a', member, read⟩ := ih rest c later
      exact ⟨a', mem_cons_of_mem _ member, read⟩

/-- The request leaves the store as it found it. -/
def ReadOnly (x : Request σ ε α) : Prop := ∀ s, (x s).2 = s

theorem readOnly_pure (a : α) : ReadOnly (Pure.pure a : Request σ ε α) := fun _ => rfl

theorem readOnly_fail (e : ε) : ReadOnly (fail e : Request σ ε α) := fun _ => rfl

theorem readOnly_attempt (g : σ → Except ε α) : ReadOnly (attempt g) := fun _ => rfl

theorem readOnly_ensure (condition : Bool) (e : ε) :
    ReadOnly (ensure condition e : Request σ ε Unit) := by
  intro s
  cases condition <;> rfl

theorem readOnly_onlyIf {action : Request σ ε Unit} (readOnly : ReadOnly action) :
    ReadOnly (onlyIf condition action) := by
  cases condition with
  | true => exact readOnly
  | false => exact readOnly_pure ()

theorem ReadOnly.bind (first : ReadOnly x) (rest : ∀ a, ReadOnly (f a)) : ReadOnly (x >>= f) := by
  intro s
  apply Outcome.bind (R := fun _ s' => s' = s) (Q := fun _ s' => s' = s) (first s)
  · rintro a _ rfl
    exact rest a _
  · rintro e _ rfl
    rfl

theorem ReadOnly.read {g : σ → Except ε α} (rest : ∀ a, ReadOnly (f a)) :
    ReadOnly (attempt g >>= f) :=
  (readOnly_attempt g).bind rest

theorem ReadOnly.result (readOnly : ReadOnly x) : ReadOnly (result x) := readOnly

theorem ReadOnly.forEach (each : ∀ a, ReadOnly (action a))
    (xs : List α) : ReadOnly (forEach action xs) := by
  induction xs with
  | nil => exact readOnly_pure ()
  | cons a xs ih => exact (each a).bind fun _ => ih

/-- Nothing needs to be known about a result that does not matter. -/
theorem Outcome.of_readOnly {Q : Except ε α → σ → Prop} (readOnly : ReadOnly x)
    (all : ∀ r, Q r s) : Outcome x s Q := by
  unfold Outcome
  rw [readOnly s]
  exact all _

theorem ReadOnly.of_ran (readOnly : ReadOnly x) (ran : x s = (r, s')) : s' = s :=
  (congrArg Prod.snd ran).symm.trans (readOnly s)

/-- What follows an action that only reads has started on the same store. -/
theorem of_readOnly_bind_eq_ok (first : ReadOnly x) (ran : (x >>= f) s = (.ok b, s')) :
    ∃ a, x s = (.ok a, s) ∧ f a s = (.ok b, s') := by
  obtain ⟨a, middle, read, rest⟩ := of_bind_eq_ok ran
  obtain rfl : middle = s := by
    rw [← first s, read]
  exact ⟨a, read, rest⟩

/-- What the read returned is known, and the store is the one it was made on. -/
theorem Outcome.readOnly_ran_bind (first : ReadOnly x)
    (next : ∀ a, x s = (.ok a, s) → Outcome (f a) s Q) (failed : ∀ e, Q (.error e) s) :
    Outcome (x >>= f) s Q := by
  apply bind (R := fun r s' => x s = (r, s) ∧ s' = s)
  · apply intro
    intro r s' ran
    have same : s' = s := by
      rw [← first s, ran]
    rw [same] at ran
    exact ⟨ran, same⟩
  · rintro a _ ⟨ran, rfl⟩
    exact next a ran
  · rintro e _ ⟨_, rfl⟩
    exact failed e

theorem Outcome.readOnly_bind (first : ReadOnly x) (next : ∀ a, Outcome (f a) s Q)
    (failed : ∀ e, Q (.error e) s) : Outcome (x >>= f) s Q :=
  readOnly_ran_bind first (fun a _ => next a) failed

/-- Whatever the outcome, the request keeps a property of the store. -/
def Keeps (P : σ → Prop) (x : Request σ ε α) : Prop := ∀ s, P s → P (x s).2

theorem Keeps.of_ran (kept : Keeps P x) (held : P s) (ran : x s = (r, s')) : P s' := by
  have after := kept s held
  rwa [ran] at after

theorem ReadOnly.keeps (readOnly : ReadOnly x) : Keeps P x := by
  intro s held
  rwa [readOnly s]

theorem keeps_pure (a : α) : Keeps P (Pure.pure a : Request σ ε α) := (readOnly_pure a).keeps

theorem Keeps.bind (first : Keeps P x) (rest : ∀ a, Keeps P (f a)) : Keeps P (x >>= f) := by
  intro s held
  apply Outcome.bind (R := fun _ s' => P s') (Q := fun _ s' => P s') (first s held)
  · intro a s' held'
    exact rest a s' held'
  · intro _ _ held'
    exact held'

theorem keeps_write {g : σ → Except ε σ} (kept : ∀ s s', P s → g s = .ok s' → P s') :
    Keeps P (write g) := by
  intro s held
  rw [write]
  cases accepted : g s with
  | ok s' => exact kept s s' held accepted
  | error e => exact held

theorem Keeps.onlyIf {action : Request σ ε Unit} (kept : Keeps P action) :
    Keeps P (onlyIf condition action) := by
  cases condition with
  | true => exact kept
  | false => exact (readOnly_pure ()).keeps

theorem Keeps.forEach (each : ∀ a, Keeps P (action a))
    (xs : List α) : Keeps P (forEach action xs) := by
  induction xs with
  | nil => exact (readOnly_pure ()).keeps
  | cons a xs ih => exact (each a).bind fun _ => ih

/-- An action that keeps a property is passed over, and the property is all that
is known of the store afterwards. -/
theorem Outcome.keeps_bind (first : Keeps P x) (held : P s)
    (next : ∀ a s', P s' → Outcome (f a) s' Q) (failed : ∀ e s', P s' → Q (.error e) s') :
    Outcome (x >>= f) s Q := by
  apply bind (R := fun _ s' => P s') (first s held)
  · exact next
  · exact failed

end Request
