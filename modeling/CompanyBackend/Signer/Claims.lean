import CompanyBackend.Library.Interleaving
import Mathlib.Data.Fintype.Basic

/-!
# Claims of a token

A token of the signer may be claimed a number of times. A request reads the token and checks that
it is not used up, verifies the signature of the claim, and then stores the claim in a transaction,
which counts it and marks the token if that was the last one.

The transaction itself does not look whether there is a claim left. What a request has read may be
out of date by then: requests that have read the token at the same time all store their claims.
-/

namespace Company

structure SignerToken where
  expiresTs : Rat
  used : Bool := false
  maxClaims : Int := 1
  claimCount : Int := 0
  deriving DecidableEq, Repr

structure TokenClaim where
  keyId : String
  publicKeyPem : String
  proofSignature : String
  deriving DecidableEq, Repr

structure SignerDb where
  token : Option SignerToken
  claims : List TokenClaim := []

/-- The count that the row is selected with afterwards decides whether it is
marked. -/
def SignerToken.countClaim (row : SignerToken) : SignerToken :=
  { row with
    claimCount := row.claimCount + 1
    used := row.used || decide (row.claimCount + 1 ≥ row.maxClaims) }

/-- What the statements of the transaction write. -/
def SignerDb.addClaim (entry : TokenClaim) (db : SignerDb) : SignerDb where
  token := db.token.map SignerToken.countClaim
  claims := db.claims ++ [entry]

/-- The transaction is rolled back if a statement fails, as it does for an id
that is taken. -/
def insertClaimAndUpdateToken (fails : Bool) (entry : TokenClaim) (db : SignerDb) :
    Bool × SignerDb :=
  if fails || db.claims.any (fun claim => claim.keyId == entry.keyId) then (false, db)
  else (true, db.addClaim entry)

structure ClaimRequest extends TokenClaim where
  header : Option String
  now : Rat
  /-- The transaction fails for another reason. -/
  fails : Bool := false
  deriving DecidableEq, Repr

abbrev ClaimAnswer := Except (Nat × String) Unit

inductive ClaimProgress where
  | arriving (request : ClaimRequest)
  /-- The token was found to be usable. -/
  | checked (request : ClaimRequest)
  | answered (answer : ClaimAnswer)
  deriving DecidableEq

section Signatures

-- The token, and whether a key has signed a text.
variable (token : String) (verifySignature : String → String → String → Bool)

/-- What is checked when the token is read. -/
def ClaimRequest.check (request : ClaimRequest) (db : SignerDb) : ClaimProgress :=
  if request.header ≠ some token then .answered (.error (401, "invalid token header"))
  else
    match db.token with
    | none => .answered (.error (404, "unknown token"))
    | some row =>
      if row.used then .answered (.error (400, "token already used"))
      else if request.now > row.expiresTs then .answered (.error (400, "token expired"))
      else .checked request

/-- The rest of a request, from the body to the transaction. -/
def ClaimRequest.persist (request : ClaimRequest) (db : SignerDb) : ClaimAnswer × SignerDb :=
  if request.publicKeyPem == "" || request.proofSignature == "" then
    (.error (400, "missing fields"), db)
  else if !verifySignature request.publicKeyPem request.proofSignature token then
    (.error (400, "invalid signature"), db)
  else
    match insertClaimAndUpdateToken request.fails request.toTokenClaim db with
    | (true, db') => (.ok (), db')
    | (false, db') => (.error (500, "failed to persist claim"), db')

def ClaimProgress.next : ClaimProgress → SignerDb → ClaimProgress × SignerDb
  | arriving request => fun db => (request.check token db, db)
  | checked request => fun db =>
    (answered (request.persist token verifySignature db).1,
      (request.persist token verifySignature db).2)
  | answered answer => fun db => (answered answer, db)

abbrev ClaimPool (ι : Type) := Pool ι ClaimProgress SignerDb

def ClaimProgress.arrives : ClaimProgress → Bool
  | arriving _ => true
  | _ => false

/-- Whether a request has read the token and not yet ended its transaction. -/
def ClaimProgress.pending : ClaimProgress → Nat
  | checked _ => 1
  | _ => 0

def ClaimPool.inFlight {ι : Type} [Fintype ι] (pool : ClaimPool ι) : Nat :=
  ∑ i, (pool.calls i).pending

/-- The token is read while no other request is in flight, or while there is a
claim left for all of them. -/
def ClaimPool.InTurn {ι : Type} [Fintype ι] (limit : Int) (pool : ClaimPool ι) (i : ι) : Prop :=
  (pool.calls i).arrives = true →
    pool.inFlight = 0 ∨ pool.store.claims.length + pool.inFlight < limit

instance decidableInTurn {ι : Type} [Fintype ι] (limit : Int) (pool : ClaimPool ι) (i : ι) :
    Decidable (pool.InTurn limit i) :=
  inferInstanceAs (Decidable (_ → _))

/-- The counter of a token counts its claims, and the token is marked when none
is left. -/
structure SignerToken.Counts (row : SignerToken) (claims : List TokenClaim) : Prop where
  count : row.claimCount = claims.length
  unused : row.used = false → row.claimCount < row.maxClaims

/-- There is a claim left for every request in flight. -/
structure SignerDb.Leaves (limit : Int) (inFlight : Nat) (db : SignerDb) : Prop where
  row : ∃ row, db.token = some row ∧ row.maxClaims = limit ∧ row.Counts db.claims
  room : db.claims.length + inFlight ≤ limit

open ClaimProgress

section Steps

variable {token verifySignature} {db : SignerDb} {request : ClaimRequest} {limit : Int}

/-- A request that goes on has found the token usable. -/
theorem ClaimRequest.check_cases (request : ClaimRequest) (db : SignerDb) :
    (request.check token db).pending = 0 ∨
      (request.check token db).pending = 1 ∧ ∃ row, db.token = some row ∧ row.used = false := by
  rw [check]
  split
  · exact .inl rfl
  · split
    · exact .inl rfl
    · next row found =>
      split
      · exact .inl rfl
      · next unused =>
        split
        · exact .inl rfl
        · exact .inr ⟨rfl, row, found, Bool.not_eq_true _ ▸ unused⟩

theorem ClaimRequest.persist_cases (request : ClaimRequest) (db : SignerDb) :
    (request.persist token verifySignature db).2 = db ∨
      (request.persist token verifySignature db).2 = db.addClaim request.toTokenClaim := by
  rw [persist]
  split
  · exact .inl rfl
  · split
    · exact .inl rfl
    · rw [insertClaimAndUpdateToken]
      by_cases failed : (request.fails || db.claims.any fun claim =>
          claim.keyId == request.toTokenClaim.keyId) = true
      · rw [if_pos failed]
        exact .inl rfl
      · rw [if_neg failed]
        exact .inr rfl

/-- Counting a claim marks the token in time. -/
theorem SignerToken.Counts.addClaim {row : SignerToken} {claims : List TokenClaim}
    (counts : row.Counts claims) (entry : TokenClaim) :
    row.countClaim.Counts (claims ++ [entry]) := by
  refine ⟨?_, fun unused => ?_⟩
  · simp [countClaim, counts.count]
  · have left := (Bool.or_eq_false_iff.mp unused).2
    exact Int.lt_of_not_ge (of_decide_eq_false left)

/-- A request takes one of the claims that are left when it reads the token, and
stores it or gives it back. -/
theorem ClaimProgress.next_leaves {call : ClaimProgress} {others : Nat}
    (leaves : db.Leaves limit (call.pending + others))
    (inTurn : call.arrives → call.pending + others = 0 ∨
      db.claims.length + (call.pending + others : Nat) < limit) :
    (call.next token verifySignature db).2.Leaves limit
      ((call.next token verifySignature db).1.pending + others) := by
  obtain ⟨⟨row, found, max, counts⟩, room⟩ := leaves
  cases call with
  | arriving request =>
    refine ⟨⟨row, found, max, counts⟩, ?_⟩
    change (db.claims.length : Int) + ((request.check token db).pending + others : Nat) ≤ limit
    rcases request.check_cases db with refused | ⟨passed, _, found', unused⟩
    · rw [refused]
      exact room
    · cases found.symm.trans found'
      have few := counts.unused unused
      have turn : 0 + others = 0 ∨ db.claims.length + (0 + others : Nat) < limit := inTurn rfl
      rw [counts.count, max] at few
      omega
  | checked request =>
    change SignerDb.Leaves limit (0 + others) (request.persist token verifySignature db).2
    change db.claims.length + (1 + others : Nat) ≤ limit at room
    rcases request.persist_cases db with failed | stored
    · rw [failed]
      exact ⟨⟨row, found, max, counts⟩, by omega⟩
    · rw [stored]
      refine ⟨⟨row.countClaim, ?_, max, counts.addClaim _⟩, ?_⟩
      · rw [SignerDb.addClaim, found, Option.map_some]
      · rw [SignerDb.addClaim, List.length_append, List.length_singleton]
        omega
  | answered answer => exact ⟨⟨row, found, max, counts⟩, room⟩

def ClaimPool.Leaves {ι : Type} [Fintype ι] (limit : Int) (pool : ClaimPool ι) : Prop :=
  pool.store.Leaves limit pool.inFlight

theorem ClaimPool.Leaves.step {ι : Type} [DecidableEq ι] [Fintype ι] {pool : ClaimPool ι} {i : ι}
    (leaves : pool.Leaves limit) (inTurn : pool.InTurn limit i) :
    ClaimPool.Leaves limit (pool.step (next token verifySignature) i) := by
  obtain ⟨others, before, after⟩ :=
    @Pool.sum_step ι _ _ _ (next token verifySignature) pool i _ Nat _ fun _ => pending
  rw [InTurn, inFlight, before] at inTurn
  rw [Leaves, inFlight, before] at leaves
  rw [Leaves, inFlight, after]
  exact next_leaves leaves inTurn

end Steps

/-- As long as the token is read in turn, there are no more claims than the
token allows, however requests are interleaved. -/
theorem claims_limited {ι : Type} [DecidableEq ι] [Fintype ι] {row : SignerToken}
    {start pool : ClaimPool ι} (arriving : ∀ i, (start.calls i).arrives)
    (found : start.store.token = some row) (counts : row.Counts start.store.claims)
    (within : start.store.claims.length ≤ row.maxClaims)
    (reached : Pool.Reaches (ClaimProgress.next token verifySignature)
      (ClaimPool.InTurn row.maxClaims) start pool) :
    pool.store.claims.length ≤ row.maxClaims := by
  have idle : start.inFlight = 0 := by
    refine Finset.sum_eq_zero fun i _ => ?_
    have arrives := arriving i
    cases call : start.calls i with
    | arriving request => rfl
    | checked request | answered answer => simp [call, ClaimProgress.arrives] at arrives
  have leaves : pool.Leaves row.maxClaims := by
    refine reached.invariant ?_ fun _ _ leaves inTurn => leaves.step inTurn
    exact ⟨⟨row, found, rfl, counts⟩, by rwa [idle, Nat.cast_zero, Int.add_zero]⟩
  have room := leaves.room
  omega

end Signatures

def claimedTwice : ClaimPool Bool where
  calls twin := .arriving
    { keyId := if twin then "second" else "first", publicKeyPem := "key",
      proofSignature := "signature", header := some "token", now := 0 }
  store := { token := some { expiresTs := 900 } }

def anySignature : String → String → String → Bool := fun _ _ _ => true

theorem claims_limited_inTurn :
    ((claimedTwice.run (ClaimProgress.next "token" anySignature)
      [false, false, true, true]).store.claims.length : Int) ≤ 1 := by
  have found : claimedTwice.store.token = some { expiresTs := 900 } := rfl
  exact claims_limited "token" anySignature (fun _ => rfl) found ⟨rfl, fun _ => by decide⟩
    (by decide) (Pool.reaches_run (by decide))

/-- A token may be claimed once. Both requests read it before either of them
stores its claim, and both succeed. -/
theorem claims_exceed_limit :
    claimedTwice.store.token = some { expiresTs := 900, maxClaims := 1 } ∧
    (claimedTwice.run (ClaimProgress.next "token" anySignature)
      [false, true, false, true]).store.claims.length = 2 := by
  decide

end Company
