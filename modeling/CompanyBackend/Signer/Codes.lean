import CompanyBackend.Library.Trace
import Mathlib.Data.Rat.Init

/-!
# Codes by e-mail

A code is verified against the newest code of the user that is not used. Once that one is used, the
code before it is next: only when codes are issued one at a time does the newest one alone count.
In any case there are at most `EMAIL_MFA_MAX_ATTEMPTS` comparisons for each code.
-/

namespace Company

open Request List

def EMAIL_MFA_CODE_TTL : Rat := 600

def EMAIL_MFA_MAX_ATTEMPTS : Nat := 5

structure MfaCode where
  code : String
  expiresAt : Rat
  attempts : Nat := 0
  used : Bool := false

/-- The transaction on the codes of a user, the newest first. It returns how
many codes are older than the one that is accepted. What is submitted is the
stripped text, or nothing where that is not text or not ASCII: comparing it
raises, which rolls back. -/
def verifyMfaCode (submitted : Option String) (now : Rat) :
    List MfaCode → Except String Nat × List MfaCode
  | [] => (.error "no_pending_code", [])
  | row :: older =>
    if row.used then
      let (answer, older) := verifyMfaCode submitted now older
      (answer, row :: older)
    else if now > row.expiresAt then (.error "code_expired", { row with used := true } :: older)
    else if row.attempts ≥ EMAIL_MFA_MAX_ATTEMPTS then
      (.error "too_many_attempts", { row with used := true } :: older)
    else
      let attempts := row.attempts + 1
      match submitted with
      | none => (.error "internal_error", row :: older)
      | some code =>
        if code = row.code then (.ok older.length, { row with attempts, used := true } :: older)
        else (.error "invalid_code", { row with attempts } :: older)

inductive MfaRequest where
  | issue (code : String) (now : Rat)
  | verify (submitted : Option String) (now : Rat)

namespace MfaRequest

def run : MfaRequest → Request (List MfaCode) String Nat
  | issue code now => fun rows =>
    (.ok rows.length, ⟨code, now + EMAIL_MFA_CODE_TTL, 0, false⟩ :: rows)
  | verify submitted now => verifyMfaCode submitted now

/-- A code is issued only if all others are used. -/
def InTurn (rows : List MfaCode) : MfaRequest → Prop
  | issue .. => ∀ row ∈ rows, row.used
  | verify .. => True

/-- Only the newest code may be unused. -/
def Spent (rows : List MfaCode) : Prop := ∀ row ∈ rows.tail, row.used

/-- A code that is accepted is the newest, not used before, and has attempts
left. -/
def AcceptsNewest (rows : List MfaCode) : MfaRequest → Prop
  | issue .. => True
  | verify submitted now => ∀ position, (verifyMfaCode submitted now rows).1 = .ok position →
    ∃ newest older, rows = newest :: older ∧ position = older.length ∧
      newest.used = false ∧ newest.attempts < EMAIL_MFA_MAX_ATTEMPTS

variable {submitted : Option String} {now : Rat} {rows older : List MfaCode} {row : MfaCode}

theorem verifyMfaCode_of_used (used : ∀ row ∈ rows, row.used) :
    verifyMfaCode submitted now rows = (.error "no_pending_code", rows) := by
  induction rows with
  | nil => rfl
  | cons row older ih =>
    rw [verifyMfaCode, if_pos (used row mem_cons_self), ih fun _ listed => used _ (.tail _ listed)]

theorem verifyMfaCode_of_unused (unused : ¬row.used) :
    ∃ answer row', verifyMfaCode submitted now (row :: older) = (answer, row' :: older) ∧
      ∀ position, answer = .ok position →
        position = older.length ∧ row.attempts < EMAIL_MFA_MAX_ATTEMPTS := by
  rw [verifyMfaCode, if_neg unused]
  split
  · exact ⟨_, _, rfl, by rintro _ ⟨⟩⟩
  · split
    · exact ⟨_, _, rfl, by rintro _ ⟨⟩⟩
    · next few =>
      dsimp only
      split
      · exact ⟨_, _, rfl, by rintro _ ⟨⟩⟩
      · split
        · refine ⟨_, _, rfl, ?_⟩
          rintro _ ⟨⟩
          exact ⟨rfl, Nat.lt_of_not_le few⟩
        · exact ⟨_, _, rfl, by rintro _ ⟨⟩⟩

theorem verifyMfaCode_spec (used : Spent rows) :
    Spent (verifyMfaCode submitted now rows).2 ∧ (verify submitted now).AcceptsNewest rows := by
  rw [AcceptsNewest]
  cases rows with
  | nil => exact ⟨used, by rintro _ ⟨⟩⟩
  | cons row older =>
    by_cases spent : row.used
    · have all : ∀ other ∈ row :: older, other.used := forall_mem_cons.mpr ⟨spent, used⟩
      rw [verifyMfaCode_of_used all]
      exact ⟨used, by rintro _ ⟨⟩⟩
    · obtain ⟨answer, row', ran, accepted⟩ := @verifyMfaCode_of_unused submitted now older row spent
      rw [ran]
      refine ⟨used, fun position returned => ?_⟩
      obtain ⟨rfl, few⟩ := accepted position returned
      exact ⟨row, older, rfl, rfl, Bool.eq_false_iff.mpr spent, few⟩

/-- If a code is issued only when all others are used, a code that is accepted
is the newest one, was not used before, and has attempts left. -/
theorem newest_code_only {requests : List MfaRequest} (inTurn : Along run InTurn [] requests) :
    Along run AcceptsNewest [] requests := by
  have start : Spent [] := by rintro _ ⟨⟩
  apply inTurn.of_invariant start
  · intro rows request used inTurn
    cases request with
    | issue code now => exact inTurn
    | verify submitted now => exact (verifyMfaCode_spec used).1
  · intro rows request used _
    cases request with
    | issue code now => trivial
    | verify submitted now => exact (verifyMfaCode_spec used).2

/-- A second code is issued when the first is used, and both are submitted. -/
def reissued : List MfaRequest :=
  [issue "111111" 0, verify (some "111111") 1, issue "222222" 2, verify (some "111111") 3,
    verify (some "222222") 4]

theorem newest_code_only_reissued :
    Along run AcceptsNewest [] reissued ∧
      (verifyMfaCode (some "111111") 3 (session run (reissued.take 3) [])).1 =
        .error "invalid_code" ∧
      (verifyMfaCode (some "222222") 4 (session run (reissued.take 4) [])).1 = .ok 1 := by
  refine ⟨newest_code_only ⟨by rintro _ ⟨⟩, trivial, ?_, trivial, trivial, trivial⟩, ?_⟩
  · show ∀ row ∈ session run (reissued.take 2) [], row.used
    decide +kernel
  · decide +kernel

/-- Two codes are issued. Once the newer one is used, the older one is accepted
as well. -/
theorem older_code_accepted :
    (verifyMfaCode (some "222222") 2 (session run [issue "111111" 0, issue "222222" 1] [])).1 =
        .ok 1 ∧
      (verifyMfaCode (some "111111") 3 (session run
        [issue "111111" 0, issue "222222" 1, verify (some "222222") 2] [])).1 = .ok 0 := by
  decide +kernel

/-- How often the codes may still be compared. -/
def allowance : List MfaCode → Nat
  | [] => 0
  | row :: older =>
    (if row.used then 0 else EMAIL_MFA_MAX_ATTEMPTS - row.attempts) + allowance older

/-- The comparisons that a verification has made. -/
def compared : Except String Nat → Nat
  | .ok _ => 1
  | .error e => if e = "invalid_code" then 1 else 0

def comparisons : List MfaRequest → List MfaCode → Nat
  | [], _ => 0
  | issue code now :: later, rows => comparisons later ((issue code now).run rows).2
  | verify submitted now :: later, rows =>
    let (answer, rows) := verifyMfaCode submitted now rows
    compared answer + comparisons later rows

def issued : List MfaRequest → Nat
  | [] => 0
  | issue .. :: later => issued later + 1
  | verify .. :: later => issued later

theorem allowance_verifyMfaCode : compared (verifyMfaCode submitted now rows).1 +
      allowance (verifyMfaCode submitted now rows).2 ≤ allowance rows := by
  fun_induction verifyMfaCode submitted now rows with
  | case1 => decide
  | case2 row older used answer older' ran ih =>
    rw [ran] at ih
    simp only [allowance] at ih ⊢
    omega
  | _ => simp_all [allowance, compared] <;> omega

/-- Whatever is submitted, there are at most five comparisons for each code that
is issued. -/
theorem comparisons_bounded (requests : List MfaRequest) (rows : List MfaCode) :
    comparisons requests rows ≤ allowance rows + EMAIL_MFA_MAX_ATTEMPTS * issued requests := by
  -- A verification pays for its comparison from the allowance, and only a new code adds to it.
  induction requests generalizing rows with
  | nil => exact Nat.zero_le _
  | cons request later ih =>
    cases request with
    | issue code now =>
      have rest := ih ((issue code now).run rows).2
      have new : allowance ((issue code now).run rows).2 =
          EMAIL_MFA_MAX_ATTEMPTS + allowance rows := rfl
      simp only [comparisons, issued, Nat.mul_succ]
      omega
    | verify submitted now =>
      have step := @allowance_verifyMfaCode submitted now rows
      have rest := ih (verifyMfaCode submitted now rows).2
      simp only [comparisons, issued]
      omega

end MfaRequest

end Company
