import Mathlib.Tactic.Common

/-!
# Tokens of the signaling server

Every message of a client carries a token: a header, claims and a signature, in base64 and
separated by dots. The header holds the public key that the signature is checked with, and
the claims hold the subject that the client acts as.

Base64, JSON and the signature scheme are libraries, and `TokenLibrary` stands for them.
Who has made a signature is not visible to the server; that a signature which verifies under
a key was made with this key is the assumption `Unforgeable`.
-/

namespace Company

structure JwtHeader where
  alg : String
  pubkey : String
deriving DecidableEq

structure JwtClaims where
  sub : Option String
  exp : Option Nat
deriving DecidableEq

/-- What the validation of tokens takes from libraries. -/
structure TokenLibrary (Key : Type) where
  decodeBase64 : String → Option (List UInt8)
  readHeader : List UInt8 → Option JwtHeader
  readClaims : List UInt8 → Option JwtClaims
  keyFromBytes : List UInt8 → Option Key
  verify : Key → String → List UInt8 → Bool

namespace TokenLibrary

variable {Key α : Type} {library : TokenLibrary Key}

/-- Every failure is reported as the same error. -/
def orAuthFailed (result : Option α) : Except String α :=
  result.elim (.error "AUTH_FAILED") .ok

def ensure (condition : Prop) [Decidable condition] : Except String Unit :=
  if condition then .ok () else .error "AUTH_FAILED"

def tokenParts (token : String) : List String := (token.toList.splitOn '.').map String.ofList

section

variable (library : TokenLibrary Key)

def headerKey (header : String) : Except String Key := do
  let headerBytes ← orAuthFailed (library.decodeBase64 header)
  let header ← orAuthFailed (library.readHeader headerBytes)
  ensure (header.alg = "EdDSA")
  let pubkeyBytes ← orAuthFailed (library.decodeBase64 header.pubkey)
  ensure (pubkeyBytes.length = 32)
  orAuthFailed (library.keyFromBytes pubkeyBytes)

def checkSignature (key : Key) (header claims signature : String) : Except String Unit := do
  let sigBytes ← orAuthFailed (library.decodeBase64 signature)
  ensure (sigBytes.length = 64)
  ensure (library.verify key (header ++ "." ++ claims) sigBytes = true)

/-- Decode the claims, check their expiry and take the subject. -/
def readSubject (now : Nat) (claims : String) : Except String String := do
  let claimsBytes ← orAuthFailed (library.decodeBase64 claims)
  let claims ← orAuthFailed (library.readClaims claimsBytes)
  claims.exp.elim (.ok ()) fun exp => ensure (¬ now > exp)
  orAuthFailed claims.sub

/-- Validate a token at a time, and return its subject. -/
def validateToken (now : Nat) (token : String) : Except String String :=
  match tokenParts token with
  | [header, claims, signature] => do
    let key ← library.headerKey header
    library.checkSignature key header claims signature
    library.readSubject now claims
  | _ => .error "AUTH_FAILED"

def tokenKey (token : String) : Option Key :=
  match tokenParts token with
  | [header, _, _] => (library.headerKey header).toOption
  | _ => none

/-- The key with which the signature of a token was made. -/
def tokenSigner (signedBy : String → List UInt8 → Option Key) (token : String) : Option Key :=
  match tokenParts token with
  | [header, claims, signature] =>
    (library.decodeBase64 signature).bind (signedBy (header ++ "." ++ claims))
  | _ => none

/-- A signature that verifies under a key was made with this key. -/
def Unforgeable (signedBy : String → List UInt8 → Option Key) : Prop :=
  ∀ key text signature, library.verify key text signature = true →
    signedBy text signature = some key

end

theorem of_orAuthFailed_eq_ok {result : Option α} {a : α} (passed : orAuthFailed result = .ok a) :
    result = some a := by
  cases result with
  | none => cases passed
  | some found => exact congrArg some (Except.ok.inj passed)

theorem of_ensure_eq_ok {condition : Prop} [Decidable condition] {u : Unit}
    (passed : ensure condition = .ok u) : condition := by
  by_contra failed
  rw [ensure, if_neg failed] at passed
  cases passed

/-- A computation that succeeds succeeds in its first step and then in the
rest. -/
theorem of_bind_eq_ok {β : Type} {first : Except String α} {rest : α → Except String β} {b : β}
    (passed : first >>= rest = .ok b) : ∃ a, first = .ok a ∧ rest a = .ok b := by
  cases first with
  | error code => cases passed
  | ok a => exact ⟨a, rfl, passed⟩

variable {signedBy : String → List UInt8 → Option Key} {key : Key} {now : Nat}

theorem of_checkSignature_eq_ok {header claims signature : String} {u : Unit}
    (passed : library.checkSignature key header claims signature = .ok u) :
    ∃ bytes, library.decodeBase64 signature = some bytes ∧
      library.verify key (header ++ "." ++ claims) bytes := by
  obtain ⟨bytes, decoded, passed⟩ := of_bind_eq_ok passed
  obtain ⟨_, _, verified⟩ := of_bind_eq_ok passed
  exact ⟨bytes, of_orAuthFailed_eq_ok decoded, of_ensure_eq_ok verified⟩

/-- An accepted token was signed with the key that it carries itself. -/
theorem Unforgeable.signer_eq (unforgeable : library.Unforgeable signedBy)
    {token subject : String} (accepted : library.validateToken now token = .ok subject) :
    ∃ key, library.tokenKey token = some key ∧
      library.tokenSigner signedBy token = some key := by
  unfold validateToken at accepted
  unfold tokenKey tokenSigner
  split at accepted
  · rename_i header claims signature _
    obtain ⟨key, decoded, accepted⟩ := of_bind_eq_ok accepted
    obtain ⟨_, signed, _⟩ := of_bind_eq_ok accepted
    obtain ⟨bytes, found, verified⟩ := of_checkSignature_eq_ok signed
    refine ⟨key, ?_, ?_⟩
    · rw [decoded]
      rfl
    · rw [found]
      exact unforgeable key _ bytes verified
  · cases accepted

/-- Two accepted tokens were signed with the same key exactly if they carry the
same key. -/
theorem Unforgeable.same_signer_iff (unforgeable : library.Unforgeable signedBy)
    {first second subject subject' : String} {now' : Nat}
    (accepted : library.validateToken now first = .ok subject)
    (accepted' : library.validateToken now' second = .ok subject') :
    library.tokenSigner signedBy first = library.tokenSigner signedBy second ↔
      library.tokenKey first = library.tokenKey second := by
  obtain ⟨_, carried, signed⟩ := unforgeable.signer_eq accepted
  obtain ⟨_, carried', signed'⟩ := unforgeable.signer_eq accepted'
  rw [carried, carried', signed, signed']

def sampleBytes : List (String × List UInt8) :=
  [("header0", [0]), ("header1", [1]), ("alice", [2]), ("bob", [3]),
    ("key0", List.replicate 32 0), ("key1", List.replicate 32 1),
    ("signature0", List.replicate 64 0), ("signature1", List.replicate 64 1)]

def twoKeys : TokenLibrary Bool where
  decodeBase64 text := sampleBytes.lookup text
  readHeader bytes :=
    if bytes = [0] then some ⟨"EdDSA", "key0"⟩
    else if bytes = [1] then some ⟨"EdDSA", "key1"⟩
    else none
  readClaims bytes :=
    if bytes = [2] then some ⟨some "alice", none⟩
    else if bytes = [3] then some ⟨some "bob", none⟩
    else none
  keyFromBytes bytes := some (bytes = List.replicate 32 1)
  verify key _ signature := signature = List.replicate 64 (if key then 1 else 0)

def twoSigners (_ : String) (signature : List UInt8) : Option Bool :=
  if signature = List.replicate 64 0 then some false
  else if signature = List.replicate 64 1 then some true
  else none

theorem twoKeys_unforgeable : twoKeys.Unforgeable twoSigners := by
  intro key text signature verified
  obtain rfl : signature = List.replicate 64 (if key then 1 else 0) := of_decide_eq_true verified
  cases key with
  | false | true => rfl

end TokenLibrary

end Company
