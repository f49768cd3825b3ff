import CompanyBackend.Library.Request

/-!
# Runs of a machine

A machine handles one input after the other on its state, until the inputs are used up
or handling one fails. The inputs come from an environment that is trusted only as far
as a condition on each input at the state it meets. An invariant that every step keeps
under the condition then holds at the end of every run, and since the beginning of a run
is a run, after each of its steps.
-/

namespace Request

variable {σ ε ι : Type}

/-- Every input meets the condition at the state in which it is handled. -/
def Guarded (step : ι → Request σ ε Unit) (condition : σ → ι → Prop) : σ → List ι → Prop
  | _, [] => True
  | s, input :: inputs =>
    condition s input ∧ ∀ s', step input s = (.ok (), s') → Guarded step condition s' inputs

variable {step : ι → Request σ ε Unit} {condition : σ → ι → Prop} {Invariant : σ → Prop}
variable {inputs : List ι}

theorem guarded_of_forall (all : ∀ input ∈ inputs, ∀ s, condition s input)
    (s : σ) : Guarded step condition s inputs := by
  induction inputs generalizing s with
  | nil => exact trivial
  | cons input inputs ih =>
    refine ⟨all input List.mem_cons_self s, ?_⟩
    intro s' _
    exact ih (fun other member => all other (List.mem_cons_of_mem _ member)) s'

variable {s s' : σ} {input : ι}

theorem guarded_cons_iff_of_ok (handled : step input s = (.ok (), s')) :
    Guarded step condition s (input :: inputs) ↔
      condition s input ∧ Guarded step condition s' inputs := by
  constructor
  · intro guarded
    exact ⟨guarded.1, guarded.2 s' handled⟩
  · rintro ⟨met, rest⟩
    refine ⟨met, ?_⟩
    intro s₁ again
    rw [handled] at again
    cases again
    exact rest

theorem guarded_cons_iff_of_error {e : ε} (handled : step input s = (.error e, s')) :
    Guarded step condition s (input :: inputs) ↔ condition s input := by
  constructor
  · exact And.left
  · intro met
    refine ⟨met, ?_⟩
    intro s₁ again
    rw [handled] at again
    cases again

/-- Whether a run is guarded is found out by running it. -/
instance decidableGuarded (step : ι → Request σ ε Unit) (condition : σ → ι → Prop)
    [decided : ∀ s input, Decidable (condition s input)] :
    ∀ s inputs, Decidable (Guarded step condition s inputs)
  | _, [] => .isTrue trivial
  | s, input :: inputs =>
    match handled : step input s with
    | (.ok (), s') =>
      have := decidableGuarded step condition s' inputs
      decidable_of_iff (condition s input ∧ Guarded step condition s' inputs)
        (guarded_cons_iff_of_ok handled).symm
    | (.error _, _) =>
      decidable_of_iff (condition s input) (guarded_cons_iff_of_error handled).symm

variable {rest : List ι}

/-- The beginning of a guarded run is guarded. -/
theorem Guarded.of_append
    (guarded : Guarded step condition s (inputs ++ rest)) : Guarded step condition s inputs := by
  induction inputs generalizing s with
  | nil => exact trivial
  | cons input inputs ih =>
    refine ⟨guarded.1, ?_⟩
    intro s' handled
    exact ih (guarded.2 s' handled)

/-- What follows the beginning of a guarded run is guarded. -/
theorem Guarded.after (guarded : Guarded step condition s (inputs ++ rest))
    (ran : forEach step inputs s = (.ok (), s')) : Guarded step condition s' rest := by
  induction inputs generalizing s with
  | nil =>
    cases ran
    exact guarded
  | cons input inputs ih =>
    obtain ⟨_, s₁, handled, later⟩ := of_bind_eq_ok ran
    exact ih (guarded.2 s₁ handled) later

/-- An invariant of guarded steps is an invariant of guarded runs. -/
theorem invariant_of_run (preserved : ∀ s input s', Invariant s → condition s input →
      step input s = (.ok (), s') → Invariant s') (start : Invariant s)
        (guarded : Guarded step condition s inputs) :
    Outcome (forEach step inputs) s fun r s' => r = .ok () → Invariant s' := by
  induction inputs generalizing s with
  | nil => exact fun _ => start
  | cons input inputs ih =>
    rw [forEach]
    apply Outcome.bind (R := fun r s₁ => step input s = (r, s₁)) rfl
    · intro _ s₁ handled
      exact ih (preserved s input s₁ start guarded.1 handled) (guarded.2 s₁ handled)
    · rintro e s₁ _ ⟨⟩

section Sessions

variable {α : Type} {act : ι → Request σ ε α} {P : σ → ι → Prop}

/-- What is left after requests that are made one after the other, whatever
becomes of each. -/
def session (act : ι → Request σ ε α) (inputs : List ι) (s : σ) : σ :=
  inputs.foldl (fun s input => (act input s).2) s

/-- Every request meets the condition at the state in which it is made. -/
def Along (act : ι → Request σ ε α) (condition : σ → ι → Prop) : σ → List ι → Prop
  | _, [] => True
  | s, input :: inputs => condition s input ∧ Along act condition (act input s).2 inputs

/-- An invariant that the requests keep under the condition gives more about
each of them. -/
theorem Along.of_invariant (along : Along act condition s inputs) (start : Invariant s)
    (preserved : ∀ s input, Invariant s → condition s input → Invariant (act input s).2)
    (implies : ∀ s input, Invariant s → condition s input → P s input) : Along act P s inputs := by
  induction inputs generalizing s with
  | nil => exact trivial
  | cons input inputs ih =>
    exact ⟨implies s input start along.1, ih along.2 (preserved s input start along.1)⟩

/-- So it holds once all of them have been made. -/
theorem Along.session_invariant (along : Along act condition s inputs) (start : Invariant s)
    (preserved : ∀ s input, Invariant s → condition s input → Invariant (act input s).2) :
    Invariant (session act inputs s) := by
  induction inputs generalizing s with
  | nil => exact start
  | cons input inputs ih => exact ih along.2 (preserved s input start along.1)

end Sessions

end Request
