import Mathlib.Data.Finset.Card
import Mathlib.Logic.Function.Basic

/-!
# Redis

The commands that the backend sends to Redis. Each of them is atomic. A key holds values of
one kind only, so there is one map for each kind, and a key without a value is a key that
does not exist: a counter starts at one, and a list or set that becomes empty is gone.

The time to live of a key is recorded and not counted down. Whoever needs keys to disappear
lets `del` happen.
-/

namespace Company

open Function

structure Redis where
  counters : String → Nat := fun _ => 0
  lists : String → List String := fun _ => []
  sets : String → Finset String := fun _ => ∅
  numbers : String → Option Int := fun _ => none
  ttl : String → Option Nat := fun _ => none

namespace Redis

variable (key : String) (redis : Redis)

def present : Bool :=
  redis.counters key != 0 || !(redis.lists key).isEmpty || decide (redis.sets key).Nonempty ||
    (redis.numbers key).isSome

def incr : Nat × Redis :=
  let count := redis.counters key + 1
  (count, { redis with counters := update redis.counters key count })

def expire (seconds : Nat) : Redis :=
  if redis.present key then { redis with ttl := update redis.ttl key (some seconds) }
  else redis

def del : Redis where
  counters := update redis.counters key 0
  lists := update redis.lists key []
  sets := update redis.sets key ∅
  numbers := update redis.numbers key none
  ttl := update redis.ttl key none

def llen : Nat := (redis.lists key).length

def lrange : List String := redis.lists key

def rpush (value : String) : Redis :=
  { redis with lists := update redis.lists key (redis.lists key ++ [value]) }

def sadd (member : String) : Redis :=
  { redis with sets := update redis.sets key (insert member (redis.sets key)) }

def srem (member : String) : Redis :=
  { redis with sets := update redis.sets key ((redis.sets key).erase member) }

def scard : Nat := (redis.sets key).card

def smembers : Finset String := redis.sets key

def get : Option Int := redis.numbers key

def set (value : Int) : Redis :=
  { redis with
    numbers := update redis.numbers key (some value)
    ttl := update redis.ttl key none }

variable {key : String} {redis : Redis} {seconds : Nat}

theorem expire_eq : ∃ ttl, redis.expire key seconds = { redis with ttl } := by
  rw [expire]
  split
  · exact ⟨_, rfl⟩
  · exact ⟨redis.ttl, rfl⟩

end Redis

/-- Keys are told apart by a letter of the literals that they begin with. -/
theorem letter_append {literal : String} {n : Nat} (short : n < literal.toList.length)
    (rest : String) : (literal ++ rest).toList[n]? = literal.toList[n]? := by
  rw [String.toList_append, List.getElem?_append_left short]

end Company
