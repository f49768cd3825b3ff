import CompanyBackend.Library.Collection
import CompanyBackend.Library.Trace
import CompanyBackend.Result

/-!
# Decorations of a profile

A user wears at most one decoration in each slot, and a decoration counts the users who wear it.
The two are stored apart: a request writes the list of the user first, and then adjusts the
counter of the decoration that is taken off and of the one that is put on.

Between requests each counter is the number of users whose list has the decoration. What keeps it
so is that a decoration has one slot only: it is never worn in another one, so what is pushed out
of the slot is all that is taken off.
-/

namespace Company

open Request Collection List

inductive DecorationCategory where
  | avatarFrame | banner | badge | nameplate | chatBubble | cardSmall | cardLarge | userPopout
  | userPopoutMobile | chatBackground | chatBackgroundMobile | profileModal
  deriving DecidableEq, Repr

inductive DecorationStatus where
  | pending | approved | rejected
  deriving DecidableEq, Repr

structure DecorationEquip where
  decorationId : String
  slot : DecorationCategory
  deriving DecidableEq, Repr

/-- A decoration, with what the store keeps in its counters. -/
structure Decoration where
  id : String
  category : DecorationCategory
  status : DecorationStatus
  isFree : Bool := false
  priceCoins : UInt32 := 0
  activeUsersCount : Int := 0
  deriving DecidableEq, Repr

structure DecorationPurchase where
  userId : String
  decorationId : String
  deriving DecidableEq, Repr

structure DecoratedUser where
  id : String
  activeDecorations : Option (List DecorationEquip) := none
  deriving DecidableEq, Repr

structure DecorationDb where
  users : Collection String DecoratedUser DecoratedUser.id
  decorations : Collection String Decoration Decoration.id
  purchases : List DecorationPurchase := []

abbrev DecorationTask (α : Type) := Request DecorationDb Error α

namespace DecorationDb

variable (id : String)

def fetchUser : DecorationTask DecoratedUser :=
  attempt fun db =>
    match db.users.find id with
    | some user => .ok user
    | none => .error .notFound

/-- A counter below zero is not read as one. -/
def fetchDecoration : DecorationTask Decoration :=
  attempt fun db =>
    match db.decorations.find id with
    | some decoration =>
      if decoration.activeUsersCount < 0 then
        .error (.databaseError "find_one" "decorations")
      else .ok decoration
    | none => .error .notFound

def userOwnsDecoration (userId decorationId : String) : DecorationTask Bool :=
  attempt fun db => .ok (db.purchases.any fun purchase =>
    purchase.userId == userId && purchase.decorationId == decorationId)

variable (decorations : List DecorationEquip)

def redecorated (user : DecoratedUser) : DecoratedUser :=
  { user with activeDecorations := some decorations }

theorem redecorated_id (user : DecoratedUser) : (redecorated decorations user).id = user.id := rfl

def redecorate (db : DecorationDb) (id : String) (decorations : List DecorationEquip) :
    DecorationDb :=
  { db with users := db.users.update id (redecorated decorations) (redecorated_id decorations) }

def updateActiveDecorations : DecorationTask Unit :=
  write fun db => .ok (db.redecorate id decorations)

def recounted (change : Int) (decoration : Decoration) : Decoration :=
  { decoration with activeUsersCount := decoration.activeUsersCount + change }

theorem recounted_id (change : Int) (decoration : Decoration) :
    (recounted change decoration).id = decoration.id := rfl

def recount (db : DecorationDb) (id : String) (change : Int) : DecorationDb :=
  { db with decorations := db.decorations.update id (recounted change) (recounted_id change) }

def incrementDecorationCounter : DecorationTask Unit :=
  write fun db => .ok (db.recount id 1)

def decrementDecorationCounter : DecorationTask Unit :=
  write fun db => .ok (db.recount id (-1))

end DecorationDb

open DecorationDb

namespace DecoratedUser

variable (user : DecoratedUser)

def worn : List DecorationEquip := user.activeDecorations.getD []

def wornIn (slot : DecorationCategory) : Option String :=
  (user.worn.find? fun equip => equip.slot == slot).map DecorationEquip.decorationId

/-- What is worn when a decoration takes the place of the one in its slot. -/
def dressedIn (decoration : Decoration) : List DecorationEquip :=
  (user.worn.filter fun equip => equip.slot != decoration.category) ++
    [{ decorationId := decoration.id, slot := decoration.category }]

def undressedOf (id : String) : List DecorationEquip :=
  user.worn.filter fun equip => equip.decorationId != id

end DecoratedUser

variable (user : DecoratedUser)

/-- A decoration that costs something is bought before. -/
def requirePurchase (decoration : Decoration) : DecorationTask Unit :=
  onlyIf (!decoration.isFree && decide (decoration.priceCoins > 0)) do
    let owns ← userOwnsDecoration user.id decoration.id
    ensure owns (.failedValidation "You must purchase this decoration before equipping it")

/-- The counters of what was worn in the slot and of what is worn in it now. -/
def recountWorn (old : Option String) (id : String) : DecorationTask Unit := do
  match old with
  | some oldId => onlyIf (oldId != id) (decrementDecorationCounter oldId)
  | none => pure ()
  onlyIf (old != some id) (incrementDecorationCounter id)

def equipDecoration (id : String) : DecorationTask Unit := do
  let decoration ← fetchDecoration id
  ensure (decoration.status == .approved) .invalidOperation
  requirePurchase user decoration
  updateActiveDecorations user.id (user.dressedIn decoration)
  recountWorn (user.wornIn decoration.category) decoration.id

def unequipDecoration (id : String) : DecorationTask Unit := do
  ensure (user.worn.any fun equip => equip.decorationId == id) .notFound
  updateActiveDecorations user.id (user.undressedOf id)
  decrementDecorationCounter id

inductive Dressing where
  | equip (userId decorationId : String)
  | unequip (userId decorationId : String)
  deriving DecidableEq, Repr

open DecorationDb

def Dressing.perform : Dressing → DecorationTask Unit
  | .equip userId id => do
    let user ← fetchUser userId
    equipDecoration user id
  | .unequip userId id => do
    let user ← fetchUser userId
    unequipDecoration user id

variable {user : DecoratedUser} {id : String}

namespace DecoratedUser

def wears (id : String) (user : DecoratedUser) : Bool :=
  user.worn.any fun equip => equip.decorationId == id

theorem wears_iff : user.wears id ↔ ∃ equip ∈ user.worn, equip.decorationId = id := by
  simp [wears]

end DecoratedUser

/-- The list of one user is replaced, and the counters change with it. -/
structure DecorationDb.Redresses (db : DecorationDb) (userId : String)
    (worn : List DecorationEquip) (change : String → Int) (db' : DecorationDb) : Prop where
  users : db'.users = (db.redecorate userId worn).users
  decorations : ∀ id, db'.decorations.find id = (db.decorations.find id).map (recounted (change id))

section Effects

variable {db db' : DecorationDb}

@[simp] theorem DecorationDb.find_recount (change : Int) (other : String) :
    (db.recount id change).decorations.find other =
      (db.decorations.find other).map (recounted (if other = id then change else 0)) := by
  by_cases same : other = id
  · subst same
    rw [if_pos rfl, recount, find_update]
  · rw [if_neg same, recount, find_update_ne same]
    cases db.decorations.find other <;> simp [recounted]

@[simp] theorem DecorationDb.recounted_recounted (first second : Int) (decoration : Decoration) :
    recounted second (recounted first decoration) = recounted (first + second) decoration := by
  simp [recounted, Int.add_assoc]

/-- How the counters change when a decoration takes the place of another one. -/
def swapChange (old : Option String) (id other : String) : Int :=
  (if other = id then 1 else 0) - (if old = some other then 1 else 0)

theorem recountWorn_ok (old : Option String) (id : String) (db : DecorationDb) :
    ∃ db', recountWorn old id db = (.ok (), db') ∧ db'.users = db.users ∧
      ∀ other, db'.decorations.find other =
        (db.decorations.find other).map (recounted (swapChange old id other)) := by
  cases old with
  | none =>
    refine ⟨db.recount id 1, rfl, rfl, fun other => ?_⟩
    simp [swapChange]
  | some oldId =>
    by_cases same : oldId = id
    · subst same
      refine ⟨db, ?_, rfl, fun other => ?_⟩
      · simp [recountWorn, onlyIf]
        rfl
      · cases db.decorations.find other <;>
          simp [swapChange, @eq_comm _ oldId other, recounted]
    · refine ⟨(db.recount oldId (-1)).recount id 1, ?_, rfl, fun other => ?_⟩
      · simp [recountWorn, onlyIf, same]
        rfl
      · rw [find_recount, find_recount, Option.map_map]
        congr 1
        funext decoration
        rw [Function.comp_apply, recounted_recounted]
        congr 1
        simp only [swapChange, Option.some.injEq, @eq_comm _ oldId other]
        split <;> split <;> rfl

theorem equipDecoration_outcome (user : DecoratedUser) (id : String) (db : DecorationDb) :
    Outcome (equipDecoration user id) db fun r db' =>
      (∃ e, r = .error e ∧ db' = db) ∨
      ∃ decoration, db.decorations.find id = some decoration ∧
        db.Redresses user.id (user.dressedIn decoration)
          (swapChange (user.wornIn decoration.category) decoration.id) db' := by
  apply Outcome.attempt_bind
  · intro decoration fetched
    have found : db.decorations.find id = some decoration := by
      split at fetched
      · next stored found =>
        split at fetched
        · cases fetched
        · cases fetched
          exact found
      · cases fetched
    apply Outcome.ensure_bind
    · intro _
      apply Outcome.readOnly_bind
      · exact readOnly_onlyIf (.read fun _ => readOnly_ensure _ _)
      · intro _
        apply Outcome.write_bind
        · rintro updated ⟨⟩
          obtain ⟨db', ran, users, decorations⟩ :=
            recountWorn_ok (user.wornIn decoration.category) decoration.id
              (db.redecorate user.id (user.dressedIn decoration))
          rw [Outcome, ran]
          exact .inr ⟨decoration, found, users, decorations⟩
        · rintro _ ⟨⟩
      · exact fun e => .inl ⟨e, rfl, rfl⟩
    · exact fun _ => .inl ⟨_, rfl, rfl⟩
  · exact fun e _ => .inl ⟨e, rfl, rfl⟩

theorem unequipDecoration_outcome (user : DecoratedUser) (id : String) (db : DecorationDb) :
    Outcome (unequipDecoration user id) db fun r db' =>
      (∃ e, r = .error e ∧ db' = db) ∨
      user.wears id ∧ db.Redresses user.id (user.undressedOf id)
        (fun other => if other = id then -1 else 0) db' := by
  apply Outcome.ensure_bind
  · intro worn
    apply Outcome.write_bind
    · rintro updated ⟨⟩
      exact .inr ⟨worn, rfl, find_recount (-1)⟩
    · rintro _ ⟨⟩
  · exact fun _ => .inl ⟨_, rfl, rfl⟩

end Effects

/-- Counters count, slots hold one decoration each, and decorations are worn in
their own slots. -/
structure DecorationDb.Consistent (db : DecorationDb) : Prop where
  counted : ∀ id decoration, db.decorations.find id = some decoration →
    decoration.activeUsersCount = db.users.documents.countP (DecoratedUser.wears id)
  slots : ∀ user ∈ db.users.documents, (user.worn.map DecorationEquip.slot).Nodup
  placed : ∀ user ∈ db.users.documents, ∀ equip ∈ user.worn, ∀ decoration,
    db.decorations.find equip.decorationId = some decoration → equip.slot = decoration.category

section Consistency

variable {db db' : DecorationDb} {worn : List DecorationEquip}
  {change : String → Int}

open DecoratedUser DecorationEquip

/-- It is enough to look at what the user puts on and takes off. -/
theorem DecorationDb.Redresses.consistent (redressed : db.Redresses user.id worn change db')
    (consistent : db.Consistent) (stored : db.users.find user.id = some user)
    (counts : ∀ id decoration, db.decorations.find id = some decoration →
      (if worn.any (·.decorationId == id) then 1 else 0) =
        (if user.wears id then 1 else 0) + change id)
    (slots : (worn.map slot).Nodup)
    (placed : ∀ equip ∈ worn, ∀ decoration,
      db.decorations.find equip.decorationId = some decoration → equip.slot = decoration.category) :
    db'.Consistent := by
  have lists : ∀ P : List DecorationEquip → Prop, (∀ user ∈ db.users.documents, P user.worn) →
      P worn → ∀ user ∈ db'.users.documents, P user.worn := by
    intro P all own other listed
    rw [redressed.users, redecorate, documents_update, List.mem_map] at listed
    obtain ⟨before, listed, rfl⟩ := listed
    split
    · exact own
    · exact all before listed
  have categories : ∀ id decoration, db'.decorations.find id = some decoration →
      ∃ before, db.decorations.find id = some before ∧ decoration.category = before.category := by
    intro id decoration found
    rw [redressed.decorations, Option.map_eq_some_iff] at found
    obtain ⟨before, found, rfl⟩ := found
    exact ⟨before, found, rfl⟩
  refine ⟨?_, lists (fun worn => (worn.map slot).Nodup) consistent.slots slots, ?_⟩
  · intro id decoration found
    rw [redressed.decorations, Option.map_eq_some_iff] at found
    obtain ⟨before, found, rfl⟩ := found
    have moved : (db.redecorate user.id worn).users.documents.countP (wears id) +
        (if user.wears id then 1 else 0) = db.users.documents.countP (wears id) +
          if worn.any (·.decorationId == id) then 1 else 0 :=
      @countP_update _ _ _ _ user db.users user.id _ (redecorated_id worn) _ stored
    have own := counts id before found
    have was := consistent.counted id before found
    rw [redressed.users]
    change before.activeUsersCount + change id = _
    cases wore : user.wears id <;> cases wears : worn.any (·.decorationId == id) <;>
      simp only [wore, wears, if_true, if_false, Bool.false_eq_true] at moved own <;> omega
  · refine lists (fun worn => ∀ equip ∈ worn, ∀ decoration,
      db'.decorations.find equip.decorationId = some decoration →
        equip.slot = decoration.category) ?_ ?_
    · intro other listed equip worn decoration found
      obtain ⟨before, found, same⟩ := categories _ _ found
      rw [same, consistent.placed other listed equip worn before found]
    · intro equip worn decoration found
      obtain ⟨before, found, same⟩ := categories _ _ found
      rw [same, placed equip worn before found]

/-- In a slot there is the one decoration that is worn there. -/
theorem DecoratedUser.wornIn_eq_some {equip : DecorationEquip} (slots : (user.worn.map slot).Nodup)
    (listed : equip ∈ user.worn) : user.wornIn equip.slot = some equip.decorationId := by
  rw [wornIn, Option.map_eq_some_iff]
  refine ⟨equip, ?_, rfl⟩
  cases found : user.worn.find? fun other => other.slot == equip.slot with
  | none => exact absurd (beq_self_eq_true _) (List.find?_eq_none.mp found equip listed)
  | some other =>
    have sameSlot : other.slot = equip.slot := by simpa using List.find?_some found
    rw [inj_on_of_nodup_map slots (mem_of_find?_eq_some found) listed sameSlot]

theorem DecoratedUser.exists_of_wornIn {slot : DecorationCategory}
    (found : user.wornIn slot = some id) :
    ∃ equip ∈ user.worn, equip.slot = slot ∧ equip.decorationId = id := by
  obtain ⟨equip, first, rfl⟩ := Option.map_eq_some_iff.mp found
  exact ⟨equip, mem_of_find?_eq_some first, by simpa using List.find?_some first, rfl⟩

variable {decoration : Decoration}

/-- What is worn in the slot gives way to the decoration, wherever each is worn
in one slot. -/
theorem DecoratedUser.dressedIn_any_iff (slots : (user.worn.map slot).Nodup)
    (placed : ∀ equip ∈ user.worn, ∀ other ∈ user.worn, equip.decorationId = id →
      other.decorationId = id → equip.slot = other.slot) :
    (user.dressedIn decoration).any (·.decorationId == id) ↔
      id = decoration.id ∨
        user.wears id ∧ user.wornIn decoration.category ≠ some id := by
  have stays : (∃ equip ∈ user.worn, equip.slot ≠ decoration.category ∧ equip.decorationId = id) ↔
      user.wears id = true ∧ user.wornIn decoration.category ≠ some id := by
    rw [wears_iff]
    constructor
    · rintro ⟨equip, listed, elsewhere, same⟩
      refine ⟨⟨equip, listed, same⟩, fun replaced => ?_⟩
      obtain ⟨other, listed', inSlot, same'⟩ := exists_of_wornIn replaced
      exact elsewhere ((placed equip listed other listed' same same').trans inSlot)
    · rintro ⟨⟨equip, listed, rfl⟩, kept⟩
      exact ⟨equip, listed, fun inSlot => kept (inSlot ▸ wornIn_eq_some slots listed), rfl⟩
  rw [← stays]
  simp [dressedIn, @eq_comm _ decoration.id, or_comm]

/-- What the counters change by is what the user puts on, less what gives
way. -/
theorem DecoratedUser.dressedIn_counts (slots : (user.worn.map slot).Nodup)
    (own : ∀ equip ∈ user.worn, equip.decorationId = decoration.id →
      equip.slot = decoration.category)
    (placed : ∀ equip ∈ user.worn, ∀ other ∈ user.worn, equip.decorationId = id →
      other.decorationId = id → equip.slot = other.slot) :
    (if (user.dressedIn decoration).any (·.decorationId == id) then 1 else 0) =
      (if user.wears id then 1 else 0) +
        swapChange (user.wornIn decoration.category) decoration.id id := by
  have worn : user.wornIn decoration.category = some id → user.wears id = true := by
    intro found
    obtain ⟨equip, listed, _, same⟩ := exists_of_wornIn found
    exact wears_iff.mpr ⟨equip, listed, same⟩
  have again : id = decoration.id → user.wears id = true →
      user.wornIn decoration.category = some id := by
    rintro rfl wears
    obtain ⟨equip, listed, same⟩ := wears_iff.mp wears
    rw [← own equip listed same, ← same]
    exact wornIn_eq_some slots listed
  simp only [dressedIn_any_iff slots placed, swapChange]
  by_cases new : id = decoration.id <;> by_cases wears : user.wears id = true <;>
    by_cases replaced : user.wornIn decoration.category = some id <;> simp_all

section

variable (consistent : db.Consistent) (stored : db.users.find user.id = some user)

include consistent stored

theorem equipDecoration_keeps (id : String) : (equipDecoration user id db).2.Consistent := by
  have listed : user ∈ db.users.documents := mem_documents.mpr stored
  rcases equipDecoration_outcome user id db with ⟨_, _, same⟩ | ⟨decoration, found, redressed⟩
  · rw [same]
    exact consistent
  · have sameId := key_of_find found
    refine redressed.consistent consistent stored ?_ ?_ ?_
    · intro other otherDecoration otherFound
      apply dressedIn_counts (consistent.slots user listed)
      · intro equip worn same
        refine consistent.placed user listed equip worn decoration ?_
        rw [same, sameId, found]
      · rintro equip worn another worn' rfl same
        rw [consistent.placed user listed equip worn otherDecoration otherFound]
        refine (consistent.placed user listed another worn' otherDecoration ?_).symm
        rw [same, otherFound]
    · have others : ((user.worn.filter fun equip => equip.slot != decoration.category).map
          slot).Nodup :=
        (consistent.slots user listed).sublist (filter_sublist.map _)
      rw [dressedIn, map_append, nodup_append]
      refine ⟨others, by simp, ?_⟩
      intro slot kept other added
      obtain ⟨equip, filtered, rfl⟩ := List.mem_map.mp kept
      obtain rfl := mem_singleton.mp added
      exact bne_iff_ne.mp (mem_filter.mp filtered).2
    · intro equip worn other otherFound
      rcases mem_append.mp worn with kept | added
      · exact consistent.placed user listed equip (mem_filter.mp kept).1 other otherFound
      · obtain rfl := mem_singleton.mp added
        rw [sameId, found] at otherFound
        rw [Option.some.inj otherFound]

theorem unequipDecoration_keeps (id : String) : (unequipDecoration user id db).2.Consistent := by
  have listed : user ∈ db.users.documents := mem_documents.mpr stored
  rcases unequipDecoration_outcome user id db with ⟨_, _, same⟩ | ⟨wears, redressed⟩
  · rw [same]
    exact consistent
  · refine redressed.consistent consistent stored ?_ ?_ ?_
    · intro other decoration _
      by_cases same : other = id
      · subst same
        simp [undressedOf, wears]
      · have kept : (user.undressedOf id).any (·.decorationId == other) = user.wears other := by
          apply Bool.eq_iff_iff.mpr
          simp only [undressedOf, wears_iff, any_eq_true, mem_filter, bne_iff_ne, beq_iff_eq]
          constructor
          · rintro ⟨equip, ⟨worn, _⟩, sameId⟩
            exact ⟨equip, worn, sameId⟩
          · rintro ⟨equip, worn, rfl⟩
            exact ⟨equip, ⟨worn, same⟩, rfl⟩
        rw [kept, if_neg same, Int.add_zero]
    · exact (consistent.slots user listed).sublist (filter_sublist.map _)
    · intro equip kept
      exact consistent.placed user listed equip (mem_filter.mp kept).1

end

/-- A request finds the user as the store has them. -/
theorem fetchUser_bind_keeps {act : DecoratedUser → DecorationTask Unit} (id : String)
    (each : ∀ {db user}, db.Consistent → db.users.find user.id = some user →
      (act user db).2.Consistent) :
    Keeps Consistent (fetchUser id >>= act) := by
  intro db consistent
  change Outcome (fetchUser id >>= act) db fun _ db' => db'.Consistent
  apply Outcome.attempt_bind
  · intro user fetched
    have stored : db.users.find user.id = some user := by
      split at fetched
      · next found =>
        cases fetched
        rw [key_of_find found, found]
      · cases fetched
    exact each consistent stored
  · exact fun _ _ => consistent

theorem dressing_keeps (dressing : Dressing) : Keeps Consistent dressing.perform := by
  cases dressing with
  | equip userId id =>
    exact fetchUser_bind_keeps userId fun consistent stored =>
      equipDecoration_keeps consistent stored id
  | unequip userId id =>
    exact fetchUser_bind_keeps userId fun consistent stored =>
      unequipDecoration_keeps consistent stored id

theorem session_consistent (dressings : List Dressing) (consistent : db.Consistent) :
    (session Dressing.perform dressings db).Consistent := by
  induction dressings generalizing db with
  | nil => exact consistent
  | cons dressing dressings ih => exact ih (dressing_keeps dressing db consistent)

/-- Where nobody wears anything yet, the counters are at zero. -/
theorem consistent_of_unworn (unworn : ∀ user ∈ db.users.documents, user.worn = [])
    (zero : ∀ decoration ∈ db.decorations.documents, decoration.activeUsersCount = 0) :
    db.Consistent := by
  refine ⟨?_, ?_, ?_⟩
  · intro id decoration found
    have nobody : db.users.documents.countP (wears id) = 0 := by
      rw [countP_eq_zero]
      intro user listed
      simp [wears, unworn user listed]
    have listed : decoration ∈ db.decorations.documents := by
      rw [mem_documents, key_of_find found, found]
    rw [zero decoration listed, nobody]
    rfl
  · intro user listed
    simp [unworn user listed]
  · intro user listed equip worn
    simp [unworn user listed] at worn

end Consistency

/-- After any sequence of requests every counter is the number of users who wear
the decoration, and nobody wears two in one slot. -/
theorem decorations_counted (db : DecorationDb) (dressings : List Dressing)
    (consistent : db.Consistent) :
    (∀ id decoration,
      (session Dressing.perform dressings db).decorations.find id = some decoration →
      decoration.activeUsersCount =
        (session Dressing.perform dressings db).users.documents.countP (DecoratedUser.wears id)) ∧
    ∀ user ∈ (session Dressing.perform dressings db).users.documents,
      (user.worn.map DecorationEquip.slot).Nodup := by
  have kept := session_consistent dressings consistent
  exact ⟨kept.counted, kept.slots⟩

def wardrobe : DecorationDb where
  users := .ofDocuments [{ id := "alice" }, { id := "bob" }]
  decorations := .ofDocuments
    [{ id := "gold", category := .avatarFrame, status := .approved },
      { id := "silver", category := .avatarFrame, status := .approved }]

theorem wardrobe_consistent : wardrobe.Consistent :=
  consistent_of_unworn (by decide) (by decide)

theorem decorations_counted_wardrobe :
    wardrobe.Consistent ∧
    (session Dressing.perform [.equip "alice" "gold", .equip "bob" "gold", .equip "alice" "silver"]
      wardrobe).decorations.documents.map Decoration.activeUsersCount = [1, 1] ∧
    ∀ user ∈ (session Dressing.perform
        [.equip "alice" "gold", .equip "bob" "gold", .equip "alice" "silver"]
        wardrobe).users.documents,
      (user.worn.map DecorationEquip.slot).Nodup :=
  ⟨wardrobe_consistent, by decide, (decorations_counted wardrobe _ wardrobe_consistent).2⟩

end Company
