import CompanyBackend.Library.Request

/-!
# Requests that are interrupted

A request that shares its store with others is executed command by command. Between two of
them it is in a local state, which says what it has found out and where it goes on.

`advance` is one such step: a command is executed, and its result leads to the next local
state.
-/

namespace Request

variable {σ ε α β L : Type}

/-- Execute a command and go on from its result. -/
def advance (x : Request σ ε α) (resume : α → L) (failed : ε → L) : σ → L × σ := fun s =>
  match x s with
  | (.ok a, s') => (resume a, s')
  | (.error e, s') => (failed e, s')

section Steps

variable {x : Request σ ε α} {resume : α → L} {failed : ε → L} {s s' : σ} {a : α} {e : ε}

theorem advance_of_ok (ran : x s = (.ok a, s')) : advance x resume failed s = (resume a, s') := by
  rw [advance, ran]

theorem advance_of_error (ran : x s = (.error e, s')) :
    advance x resume failed s = (failed e, s') := by
  rw [advance, ran]

/-- What holds after the step, if it holds for both ways that the command may
end. -/
theorem advance_elim {P : L → σ → Prop} (success : ∀ a s', x s = (.ok a, s') → P (resume a) s')
    (failure : ∀ e s', x s = (.error e, s') → P (failed e) s') :
    P (advance x resume failed s).1 (advance x resume failed s).2 := by
  cases ran : x s with
  | mk r s' =>
    cases r with
    | ok a =>
      rw [advance_of_ok ran]
      exact success a s' ran
    | error e =>
      rw [advance_of_error ran]
      exact failure e s' ran

end Steps

end Request
