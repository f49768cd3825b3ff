import CompanyBackend.Library.HashMap
import CompanyBackend.Library.Interleaving
import CompanyBackend.Result

/-!
# Reactions

A request to react, or to take a reaction back, loads the message, decides on what it has loaded
and then writes with one update. Whoever is the only user in the message that was loaded clears the
emoji, and with it the reactions that others have added in the meantime.
-/

namespace Company

open HashMap

/-- The users by the emoji that they have reacted with. -/
abbrev Reactions := HashMap String (List String)

/-- The limit of the configuration, and what `Interactions::can_use` and
`Emoji::can_use` say. -/
structure ReactionServices where
  messageReactions : Nat
  whitelists : String → Bool
  canUse : String → Result Bool

inductive ReactionRequest where
  | add (user emoji : String)
  | remove (user emoji : String)
  deriving DecidableEq, Repr

namespace Reactions

variable (reactions : Reactions) (user emoji : String)

def users : List String := (reactions.lookup emoji).getD []

/-- `$addToSet` -/
def addReaction : Reactions :=
  let users := reactions.users emoji
  reactions.put emoji (if users.contains user then users else users ++ [user])

/-- `$pull` -/
def removeReaction : Reactions := reactions.modify emoji (·.filter (· != user))

/-- The write that a request comes to, by the reactions that it has loaded. -/
def decideWrite (services : ReactionServices) : ReactionRequest → Result (Reactions → Reactions)
  | .add user emoji =>
    if reactions.size ≥ services.messageReactions ∧ (reactions.lookup emoji).isNone then
      .error .invalidOperation
    else if !services.whitelists emoji then .error .invalidOperation
    else match services.canUse emoji with
      | .error e => .error e
      | .ok false => .error .invalidOperation
      | .ok true => .ok (addReaction · user emoji)
  | .remove user emoji =>
    match reactions.lookup emoji with
    | none => .error .notFound
    | some users =>
      if !users.contains user then .error .notFound
      else .ok (if users.length = 1 then (·.erase emoji) else (removeReaction · user emoji))

variable {reactions user emoji} {other emoji' : String}

theorem mem_users_addReaction :
    other ∈ (reactions.addReaction user emoji').users emoji ↔
      other ∈ reactions.users emoji ∨ emoji = emoji' ∧ other = user := by
  by_cases same : emoji = emoji'
  · subst same
    rw [users, addReaction, lookup_put, Option.getD_some]
    grind
  · simp [users, addReaction, lookup_put_ne _ same, same]

theorem mem_users_removeReaction :
    other ∈ (reactions.removeReaction user emoji').users emoji ↔
      other ∈ reactions.users emoji ∧ ¬(emoji = emoji' ∧ other = user) := by
  by_cases same : emoji = emoji'
  · subst same
    rw [users, removeReaction, lookup_modify, users]
    cases reactions.lookup emoji <;> simp
  · simp [users, removeReaction, lookup_modify_ne _ same, same]

theorem mem_users_erase :
    other ∈ users (reactions.erase emoji') emoji ↔
      other ∈ reactions.users emoji ∧ emoji ≠ emoji' := by
  by_cases same : emoji = emoji'
  · subst same
    simp [users]
  · simp [users, AList.lookup_erase_ne same, same]

end Reactions

/-- The stored reactions, and the events that were published, the newest first.
A request publishes that its user has reacted, or has taken it back, when it
writes. -/
structure ReactionStore where
  reactions : Reactions
  published : List ReactionRequest := []

inductive ReactionCall where
  | begun (request : ReactionRequest)
  | loaded (request : ReactionRequest) (seen : Reactions)
  | ended (result : Result Unit)

open Reactions

namespace ReactionCall

def next (services : ReactionServices) : ReactionCall → ReactionStore → ReactionCall × ReactionStore
  | .begun request, store => (.loaded request store.reactions, store)
  | .loaded request seen, store =>
    match seen.decideWrite services request with
    | .ok write => (.ended (.ok ()),
        { reactions := write store.reactions, published := request :: store.published })
    | .error e => (.ended (.error e), store)
  | .ended result, store => (.ended result, store)

/-- If the call has loaded its user's reaction as the only one with the emoji,
no other one is stored. -/
def clearsOwn (stored : Reactions) : ReactionCall → Bool
  | .loaded (.remove user emoji) seen =>
    seen.users emoji != [user] || (stored.users emoji).all (· == user)
  | _ => true

variable {services : ReactionServices} {call : ReactionCall} {store : ReactionStore}
variable {user emoji : String} {present : Prop}

/-- Who has reacted and has not taken it back is stored. -/
theorem next_keeps (clears : call.clearsOwn store.reactions)
    (kept : present ∨ .add user emoji ∈ store.published → .remove user emoji ∉ store.published →
      user ∈ store.reactions.users emoji)
    (added : present ∨ .add user emoji ∈ (call.next services store).2.published)
    (unremoved : .remove user emoji ∉ (call.next services store).2.published) :
    user ∈ (call.next services store).2.reactions.users emoji := by
  cases call with
  | begun request | ended result => exact kept added unremoved
  | loaded request seen =>
    rw [next] at added unremoved ⊢
    cases decided : seen.decideWrite services request with
    | error e =>
      rw [decided] at added unremoved
      exact kept added unremoved
    | ok write =>
      rw [decided] at added unremoved
      obtain ⟨another, earlier⟩ := not_or.mp (List.mem_cons.not.mp unremoved)
      cases request with
      | add adder emoji' =>
        have written : write = (addReaction · adder emoji') := by
          rw [decideWrite] at decided
          grind
        subst written
        refine mem_users_addReaction.mpr ?_
        obtain present | listed := added
        · exact .inl (kept (.inl present) earlier)
        · obtain ⟨⟨⟩⟩ | listed := List.mem_cons.mp listed
          · exact .inr ⟨rfl, rfl⟩
          · exact .inl (kept (.inr listed) earlier)
      | remove remover emoji' =>
        have member : user ∈ store.reactions.users emoji := by
          refine kept (added.imp_right fun listed => ?_) earlier
          exact (List.mem_cons.mp listed).resolve_left nofun
        have written : write = (removeReaction · remover emoji') ∨
            write = (·.erase emoji') ∧ seen.users emoji' = [remover] := by
          rw [decideWrite] at decided
          grind [users, List.length_eq_one_iff]
        obtain rfl | ⟨rfl, single⟩ := written
        · refine mem_users_removeReaction.mpr ⟨member, ?_⟩
          rintro ⟨rfl, rfl⟩
          exact another rfl
        · refine mem_users_erase.mpr ⟨member, ?_⟩
          rintro rfl
          -- nobody but the remover is stored under the emoji
          have own : ∀ other ∈ store.reactions.users emoji, other = remover := by
            simpa [clearsOwn, single] using clears
          rw [own user member] at another
          exact another rfl

end ReactionCall

/-- A reaction that was there or was added, and that its user has not removed,
is stored if those who remove the only reaction with an emoji that they have
loaded find no other one. -/
theorem reactions_kept {ι : Type} [DecidableEq ι] {services : ReactionServices}
    {start pool : Pool ι ReactionCall ReactionStore} {user emoji : String}
    (begun : start.store.published = [])
    (reached : Pool.Reaches (ReactionCall.next services)
      (fun pool i => (pool.calls i).clearsOwn pool.store.reactions) start pool)
    (added : user ∈ start.store.reactions.users emoji ∨ .add user emoji ∈ pool.store.published)
    (unremoved : .remove user emoji ∉ pool.store.published) :
    user ∈ pool.store.reactions.users emoji := by
  induction reached with
  | refl => simpa [begun] using added
  | tail _ taken ih =>
    obtain ⟨i, clears, rfl⟩ := taken
    exact ReactionCall.next_keeps clears ih added unremoved

def anyEmoji : ReactionServices where
  messageReactions := 20
  whitelists _ := true
  canUse _ := .ok true

/-- Alice, who has reacted, takes the reaction back while bob reacts. -/
def reacting (schedule : List Bool) : Pool Bool ReactionCall ReactionStore :=
  Pool.run (ReactionCall.next anyEmoji)
    { calls := fun bob => .begun (if bob then .add "bob" "👍" else .remove "alice" "👍")
      store := { reactions := ofPairs [("👍", ["alice"])] } } schedule

theorem reactions_kept_inTurn :
    "bob" ∈ (reacting [false, false, true, true]).store.reactions.users "👍" := by
  refine reactions_kept rfl (Pool.reaches_run ?_) (.inr ?_) ?_
  all_goals decide +kernel

/-- Alice removes the only reaction that they have loaded. Bob reacts in
between, and the whole emoji is removed with bob's reaction. -/
theorem reaction_lost :
    (reacting [false, true, true, false]).store.published =
        [.remove "alice" "👍", .add "bob" "👍"] ∧
      "bob" ∉ (reacting [false, true, true, false]).store.reactions.users "👍" := by
  decide +kernel

end Company
