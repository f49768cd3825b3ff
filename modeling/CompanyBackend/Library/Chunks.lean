import Mathlib.Tactic.Common

/-!
# Reading in chunks

A cursor is read in rounds of a fixed size, until a read finds nothing more. A list whose length is
a multiple of the size is only found to be at its end by an empty chunk.
-/

namespace Chunks

variable {α : Type} {size n : Nat} {xs : List α}

/-- The chunks that are read in at most so many rounds. -/
def rounds (size : Nat) : Nat → List α → List (List α)
  | 0, _ => []
  | n + 1, xs =>
    xs.take size :: if xs.length < size then [] else rounds size n (xs.drop size)

/-- There are no more rounds than this, if a round reads anything at all. -/
def chunks (size : Nat) (xs : List α) : List (List α) := rounds size (xs.length + 1) xs

theorem flatten_rounds (positive : 0 < size) (enough : xs.length < n) :
    (rounds size n xs).flatten = xs := by
  induction n generalizing xs with
  | zero => omega
  | succ n ih =>
    rw [rounds, List.flatten_cons]
    split
    next last =>
      rw [List.flatten_nil, List.append_nil, List.take_of_length_le (Nat.le_of_lt last)]
    next more =>
      have shorter : (xs.drop size).length < n := by
        rw [List.length_drop]
        omega
      rw [ih shorter, List.take_append_drop]

/-- Every element is read once, in its place. -/
theorem flatten_chunks (positive : 0 < size) (xs : List α) : (chunks size xs).flatten = xs :=
  flatten_rounds positive (Nat.lt_succ_self _)

end Chunks
