import CompanyBackend.Library.Collection

/-!
# Refreshing subscriptions

The subscription of a user is a copy of what Nexus answers, next to the identifiers of the payment
service. An active subscription is written as a whole document, and what the last one had besides
is lost; that there is none is written field by field.
-/

namespace Company

open Collection HashMap

/-- A user, with the fields of the subscription that the document has. -/
structure SubscribedUser where
  id : String
  subscription : Option (HashMap String (String ⊕ Int64)) := none

abbrev SubscribedUsers := Collection String SubscribedUser SubscribedUser.id

inductive SubscriptionRefreshOutcome where
  | active (tier : String) (expiresAtUnix : Option Int64)
  | none
  | disabled

/-- What Nexus answers, if it does, and the time then. -/
structure SubscriptionRefresh where
  outcome : Option SubscriptionRefreshOutcome
  nowUnix : Int64

def SubscriptionRefresh.isActive (answer : SubscriptionRefresh) : Bool :=
  answer.outcome matches some (.active ..)

def nexusTierToCompany : String → String
  | "basic" => "Basic"
  | "pro" => "Pro"
  | "ultra" => "Ultra"
  | _ => "Free"

namespace SubscribedUsers

/-- `refresh_user_subscription_from_nexus`. -/
def refresh (userId : String) (users : SubscribedUsers) (answer : SubscriptionRefresh) :
    SubscribedUsers :=
  let refreshedAt := put "last_nexus_refresh_at" (.inr answer.nowUnix)
  match answer.outcome with
  | some (.active tier expiresAtUnix) =>
      let tiered := put "tier" (.inl (nexusTierToCompany tier)) ∅
      let expiring := match expiresAtUnix with
        | some expiresAt => put "expires_at" (.inr expiresAt) tiered
        | none => tiered
      users.update userId (fun user => { user with subscription := some (refreshedAt expiring) })
        fun _ => rfl
  | some .none =>
      users.update userId (fun user => { user with
        subscription := some ((refreshedAt (put "tier" (.inl "Free")
          (user.subscription.getD ∅))).erase "expires_at") }) fun _ => rfl
  | some .disabled | none => users

def field (users : SubscribedUsers) (userId name : String) : Option (String ⊕ Int64) :=
  ((users.find userId).bind (·.subscription)).bind (·.lookup name)

/-- The fields that a refresh is about. -/
def mirrored : List String := ["tier", "expires_at", "last_nexus_refresh_at"]

variable {userId name : String}

theorem field_refresh (other : name ∉ mirrored) (users : SubscribedUsers)
    (answer : SubscriptionRefresh) :
    (users.refresh userId answer).field userId name =
      if answer.isActive then none else users.field userId name := by
  simp only [mirrored, List.mem_cons, List.not_mem_nil, or_false, not_or] at other
  obtain ⟨tier, expiry, time⟩ := other
  obtain ⟨outcome, now⟩ := answer
  rcases found : users.find userId with _ | ⟨_, subscription⟩ <;>
    rcases outcome with _ | ⟨_, _ | _⟩ | _ | _ <;>
      simp [field, refresh, SubscriptionRefresh.isActive, found, lookup_put_ne,
        AList.lookup_erase_ne, tier, expiry, time]
  cases subscription <;> simp

theorem field_refreshes (other : name ∉ mirrored) (answers : List SubscriptionRefresh)
    (users : SubscribedUsers) :
    (answers.foldl (refresh userId) users).field userId name =
      if answers.any (·.isActive) then none else users.field userId name := by
  induction answers generalizing users with
  | nil => rfl
  | cons answer answers ih =>
      rw [List.foldl_cons, ih, field_refresh other, List.any_cons]
      cases answer.isActive <;> simp

/-- Refreshes keep the fields that they do not mirror exactly if no answer is
active or the user has no such field: an active subscription replaces all that
is stored. -/
theorem refreshes_keep_fields_iff (users : SubscribedUsers) (userId : String)
    (answers : List SubscriptionRefresh) :
    (∀ name ∉ mirrored, (answers.foldl (refresh userId) users).field userId name =
        users.field userId name) ↔
      ((∃ answer ∈ answers, answer.isActive) →
        ∀ name ∉ mirrored, users.field userId name = none) := by
  rw [← List.any_eq_true]
  constructor
  · intro kept active name other
    rw [← kept name other, field_refreshes other, if_pos active]
  · intro absent name other
    rw [field_refreshes other]
    split
    · exact (absent ‹_› name other).symm
    · rfl

def oneCustomer : SubscribedUsers :=
  ofDocuments [⟨"01A", some (put "stripe_customer_id" (.inl "cus_1") ∅)⟩]

/-- A refresh loses the id under which the user is known to the payment
service. -/
theorem customer_lost :
    oneCustomer.field "01A" "stripe_customer_id" = some (.inl "cus_1") ∧
      (refresh "01A" oneCustomer ⟨some (.active "pro" none), 1⟩).field "01A"
        "stripe_customer_id" = none :=
  ⟨rfl, rfl⟩

end SubscribedUsers

end Company
