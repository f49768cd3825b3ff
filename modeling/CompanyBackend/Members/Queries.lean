import CompanyBackend.Members.Membership

/-!
# Queries for members

A document that is marked for deletion belongs to somebody who has left. A query treats such a
user as no member if it answers as if the document were not there. Most queries filter the
marked documents out. The chunked query for all members, the two queries by roles and the query
for mutual servers do not, and the chunked ones panic at a document that does not decode, which
is what leaving makes of a document. The condition for each of them is given exactly.

The documents that a query returns are decoded one by one. Outside of a chunked query, those
that do not decode are left out, as in a release build: a debug build panics there. Only the
generator of the reference driver, which is for tests, is modelled as in a debug build, where an
offset that overflows panics.
-/

namespace Company

open Request MongoDb Collection List Except

namespace MemberDocument

def visible (document : MemberDocument) : Bool := document.pendingDeletionAt.isNone

def ofServer (serverId : String) (document : MemberDocument) : Bool :=
  document.id.server == serverId

def ofUser (userId : String) (document : MemberDocument) : Bool := document.id.user == userId

def hasRole (roles : List String) (document : MemberDocument) : Bool :=
  document.roles.any roles.contains

end MemberDocument

open MemberDocument

/-- The members that a generator yields, if it comes to its end. A document that
does not decode makes it panic, and the members that it has yielded before are
then no part of the answer. -/
def drainMembers : List MemberDocument → Except Failure (List Member)
  | [] => .ok []
  | document :: documents =>
    match document.toMember with
    | some member => (drainMembers documents).map (member :: ·)
    | none => .error (.panic "Failed to fetch the next member")

namespace MongoDb

variable (db : MongoDb)

def matching (filter : MemberDocument → Bool) : List MemberDocument :=
  db.serverMembers.documents.filter filter

variable (serverId : String)

def fetchAllMembers : List Member :=
  (db.matching fun document => document.ofServer serverId && document.visible).filterMap toMember

def fetchAllMembersChunked : Except Failure (List Member) :=
  drainMembers (db.matching (ofServer serverId))

def fetchAllMembersWithRoles (roles : List String) : List Member :=
  (db.matching fun document => document.ofServer serverId && document.hasRole roles).filterMap
    toMember

def fetchAllMembersWithRolesChunked (roles : List String) : Except Failure (List Member) :=
  drainMembers (db.matching fun document => document.ofServer serverId && document.hasRole roles)

def fetchAllMemberships (userId : String) : List Member :=
  (db.matching fun document => document.ofUser userId && document.visible).filterMap toMember

def fetchMemberCount : Nat :=
  (db.matching fun document => document.ofServer serverId && document.visible).length

def fetchServerCount (userId : String) : Nat :=
  (db.matching fun document => document.ofUser userId && document.visible).length

/-- The store without the documents that are marked for deletion. -/
def withoutPending : MongoDb :=
  { db with serverMembers := db.serverMembers.retain visible }

end MongoDb

inductive MemberQuery where
  | member (serverId userId : String)
  | allMembers (serverId : String)
  | allMembersChunked (serverId : String)
  | allMembersWithRoles (serverId : String) (roles : List String)
  | allMembersWithRolesChunked (serverId : String) (roles : List String)
  | allMemberships (userId : String)
  | members (serverId : String) (ids : List String)
  | memberCount (serverId : String)
  | serverCount (userId : String)
  | mutualServerIds (userA userB : String)
  deriving DecidableEq, Repr

inductive MemberAnswer where
  | member (member : Member)
  | members (members : List Member)
  | count (count : Nat)
  | servers (ids : List String)
  deriving DecidableEq, Repr

def MemberQuery.answer (db : MongoDb) : MemberQuery → Except Failure MemberAnswer
  | .member serverId userId => ((db.fetchMember serverId userId).mapError .error).map .member
  | .allMembers serverId => .ok (.members (db.fetchAllMembers serverId))
  | .allMembersChunked serverId => (db.fetchAllMembersChunked serverId).map .members
  | .allMembersWithRoles serverId roles =>
    .ok (.members (db.fetchAllMembersWithRoles serverId roles))
  | .allMembersWithRolesChunked serverId roles =>
    (db.fetchAllMembersWithRolesChunked serverId roles).map .members
  | .allMemberships userId => .ok (.members (db.fetchAllMemberships userId))
  | .members serverId ids => ((db.fetchMembers serverId ids).mapError .error).map .members
  | .memberCount serverId => .ok (.count (db.fetchMemberCount serverId))
  | .serverCount userId => .ok (.count (db.fetchServerCount userId))
  | .mutualServerIds userA userB =>
    ((db.fetchMutualServerIds userA userB).mapError .error).map .servers

/-- A generator over these documents does not come across a marked one, or
panics anyway. -/
def DrainsUnaffected (documents : List MemberDocument) : Prop :=
  (∃ document ∈ documents, document.visible = true ∧ document.toMember = none) ∨
    ∀ document ∈ documents, document.visible = true

/-- When a query answers as if the marked documents were not there. -/
def MemberQuery.Unaffected (db : MongoDb) : MemberQuery → Prop
  | .allMembersChunked serverId => DrainsUnaffected (db.matching (ofServer serverId))
  | .allMembersWithRolesChunked serverId roles =>
    DrainsUnaffected (db.matching fun document =>
      document.ofServer serverId && document.hasRole roles)
  | .allMembersWithRoles serverId roles =>
    ∀ document ∈ db.matching fun document =>
      document.ofServer serverId && document.hasRole roles,
        document.visible = true ∨ document.toMember = none
  | .mutualServerIds userA userB =>
    ∀ serverId documentA documentB,
      db.serverMembers.find { server := serverId, user := userA } = some documentA →
        db.serverMembers.find { server := serverId, user := userB } = some documentB →
          documentA.visible = true ∧ documentB.visible = true
  | _ => True

section Lists

variable {documents : List MemberDocument}

theorem drainMembers_eq (documents : List MemberDocument) :
    drainMembers documents =
      if ∀ document ∈ documents, document.toMember.isSome = true then
        .ok (documents.filterMap toMember)
      else .error (.panic "Failed to fetch the next member") := by
  induction documents with
  | nil => rfl
  | cons document documents ih =>
    rw [drainMembers]
    cases decoded : document.toMember with
    | none =>
      rw [if_neg]
      intro all
      have some := all document mem_cons_self
      rw [decoded] at some
      cases some
    | some member =>
      rw [ih, filterMap_cons, decoded]
      by_cases rest : ∀ document ∈ documents, document.toMember.isSome = true
      · rw [if_pos rest, if_pos]
        · rfl
        · simpa [decoded] using rest
      · rw [if_neg rest, if_neg]
        · rfl
        · simpa [decoded] using rest

/-- Elements that are left out do not matter exactly if they yield nothing. -/
theorem filterMap_filter_eq_iff {α β : Type} {f : α → Option β} {keep : α → Bool} {xs : List α} :
    xs.filterMap f = (xs.filter keep).filterMap f ↔ ∀ x ∈ xs, keep x ∨ f x = none := by
  induction xs with
  | nil => simp
  | cons x xs ih =>
    rw [forall_mem_cons, ← ih, filter_cons, filterMap_cons]
    cases kept : keep x with
    | true =>
      rw [if_pos rfl, filterMap_cons]
      cases f x <;> simp
    | false =>
      rw [if_neg Bool.false_ne_true]
      cases yields : f x with
      | none => simp
      | some y =>
        -- The list with the element is longer than any without it.
        have shorter : ((xs.filter keep).filterMap f).length ≤ (xs.filterMap f).length :=
          (filter_sublist.filterMap f).length_le
        constructor
        · intro same
          have lengths := congrArg List.length same
          rw [length_cons] at lengths
          omega
        · rintro ⟨impossible | impossible, _⟩ <;> cases impossible

theorem map_filter_eq_iff {α β : Type} {f : α → β} {keep : α → Bool} {xs : List α} :
    xs.map f = (xs.filter keep).map f ↔ ∀ x ∈ xs, keep x := by
  have filtered := @filterMap_filter_eq_iff α β (some ∘ f) keep xs
  rw [filterMap_eq_map] at filtered
  simpa using filtered

/-- A generator yields the same without the marked documents exactly if there
are none, or if it panics at one that is not marked. -/
theorem drainMembers_filter_eq_iff :
    drainMembers documents = drainMembers (documents.filter visible) ↔
      DrainsUnaffected documents := by
  rw [drainMembers_eq, drainMembers_eq]
  by_cases broken : ∃ document ∈ documents, document.visible = true ∧ document.toMember = none
  · obtain ⟨document, member, shown, absent⟩ := broken
    have panics : ∀ xs : List MemberDocument, document ∈ xs →
        ¬ ∀ document ∈ xs, document.toMember.isSome = true := by
      intro xs inside all
      have some := all document inside
      rw [absent] at some
      cases some
    rw [if_neg (panics _ member), if_neg (panics _ (mem_filter.mpr ⟨member, shown⟩))]
    exact ⟨fun _ => .inl ⟨document, member, shown, absent⟩, fun _ => rfl⟩
  · have decodes : ∀ document ∈ documents.filter visible, document.toMember.isSome = true := by
      intro document member
      obtain ⟨inside, shown⟩ := mem_filter.mp member
      exact Option.isSome_iff_ne_none.mpr fun absent => broken ⟨document, inside, shown, absent⟩
    rw [if_pos decodes, DrainsUnaffected, or_iff_right broken]
    by_cases all : ∀ document ∈ documents, document.toMember.isSome = true
    · rw [if_pos all, ok.injEq, filterMap_filter_eq_iff]
      refine forall₂_congr fun document member => or_iff_left fun absent => ?_
      have some := all document member
      rw [absent] at some
      cases some
    · rw [if_neg all]
      constructor
      · nofun
      · intro shown
        refine absurd ?_ all
        intro document member
        exact decodes document (mem_filter.mpr ⟨member, shown document member⟩)

end Lists

section Queries

variable {db : MongoDb} (filter : MemberDocument → Bool)

theorem MongoDb.matching_withoutPending :
    db.withoutPending.matching filter = (db.matching filter).filter visible := by
  rw [matching, matching, withoutPending, documents_retain, filter_filter, filter_filter]
  exact filter_congr fun document _ => Bool.and_comm _ _

/-- A filter that excludes the marked documents does not miss them. -/
theorem MongoDb.matching_visible :
    db.withoutPending.matching (fun document => filter document && document.visible) =
      db.matching fun document => filter document && document.visible := by
  rw [matching_withoutPending, matching, filter_filter]
  refine filter_congr fun document _ => ?_
  cases document.visible <;> simp

theorem MongoDb.fetchMember_withoutPending (serverId userId : String) :
    db.withoutPending.fetchMember serverId userId = db.fetchMember serverId userId := by
  rw [fetchMember, fetchMember, withoutPending, find_retain]
  cases db.serverMembers.find { server := serverId, user := userId } with
  | none => rfl
  | some document =>
    rw [Option.filter_some, visible]
    cases marked : document.pendingDeletionAt <;> simp [marked]

theorem MongoDb.fetchMembers_withoutPending (serverId : String) (ids : List String) :
    db.withoutPending.fetchMembers serverId ids = db.fetchMembers serverId ids := by
  have filters : ∀ db : MongoDb, db.fetchMembers serverId ids = .ok ((db.matching fun document =>
      (document.id.server == serverId && ids.contains document.id.user) &&
        document.visible).filterMap toMember) := by
    intro db
    rw [fetchMembers, matching]
    congr 2
    refine filter_congr fun document _ => ?_
    rw [visible, Bool.and_right_comm]
  rw [filters, filters, matching_visible]

open MemberQuery

/-- Without the marked documents, a server is mutual if neither user's document
is marked. -/
theorem MongoDb.fetchMutualServerIds_withoutPending (userA userB : String) :
    db.fetchMutualServerIds userA userB = db.withoutPending.fetchMutualServerIds userA userB ↔
      (mutualServerIds userA userB).Unaffected db := by
  have pending : db.withoutPending.fetchMutualServerIds userA userB =
      .ok (((db.serverMembers.documents.filter fun document => document.id.user == userA &&
          (db.serverMembers.find { server := document.id.server, user := userB }).isSome).filter
        fun document => document.visible &&
          (db.serverMembers.find { server := document.id.server, user := userB }).any visible).map
        fun document => document.id.server) := by
    rw [fetchMutualServerIds, withoutPending, documents_retain, filter_filter, filter_filter]
    congr 2
    refine filter_congr fun document _ => ?_
    rw [find_retain]
    cases db.serverMembers.find { server := document.id.server, user := userB } with
    | none => simp
    | some other => cases document.visible <;> cases h : other.visible <;> simp [h]
  rw [pending, fetchMutualServerIds, ok.injEq, map_filter_eq_iff]
  constructor
  · intro all serverId documentA documentB foundA foundB
    have idA : documentA.id = ⟨serverId, userA⟩ := key_of_find foundA
    have both := all documentA <| mem_filter.mpr ⟨mem_documents.mpr
      (by rw [idA]; exact foundA), by simp [idA, foundB]⟩
    simpa [idA, foundB] using both
  · intro unaffected documentA member
    obtain ⟨inside, matched⟩ := mem_filter.mp member
    obtain ⟨user, shared⟩ := (Bool.and_eq_true _ _).mp matched
    obtain ⟨documentB, foundB⟩ := Option.isSome_iff_exists.mp shared
    have foundA := mem_documents.mp inside
    obtain ⟨shownA, shownB⟩ := unaffected documentA.id.server documentA documentB
      (by rw [← eq_of_beq user]; exact foundA) foundB
    simp [shownA, foundB, shownB]

/-- Wrapping an answer does not hide a difference. -/
theorem answers_eq_iff {ε α : Type} {wrap : α → MemberAnswer} (injective : wrap.Injective)
    {first second : Except ε α} : first.map wrap = second.map wrap ↔ first = second := by
  refine ⟨fun same => ?_, congrArg _⟩
  cases first with
  | error => cases second with
    | error => cases same; rfl
    | ok => cases same
  | ok => cases second with
    | error => cases same
    | ok => rw [injective (ok.inj same)]

/-- A query treats the users whose documents are marked for deletion as no
members, in its answer and in not failing because of them, exactly if it is
unaffected by them. -/
theorem queries_ignore_pending_deletion (db : MongoDb) (query : MemberQuery) :
    query.answer db = query.answer db.withoutPending ↔ query.Unaffected db := by
  cases query with
  | member serverId userId =>
    rw [answer, answer, fetchMember_withoutPending]
    exact iff_of_true rfl trivial
  | allMembers serverId =>
    rw [answer, answer, fetchAllMembers, fetchAllMembers, matching_visible]
    exact iff_of_true rfl trivial
  | allMembersChunked serverId =>
    rw [answer, answer,
      answers_eq_iff fun _ _ => MemberAnswer.members.inj, fetchAllMembersChunked,
      fetchAllMembersChunked, matching_withoutPending]
    exact drainMembers_filter_eq_iff
  | allMembersWithRoles serverId roles =>
    rw [answer, answer, ok.injEq, MemberAnswer.members.injEq, fetchAllMembersWithRoles,
      fetchAllMembersWithRoles, matching_withoutPending]
    exact filterMap_filter_eq_iff
  | allMembersWithRolesChunked serverId roles =>
    rw [answer, answer,
      answers_eq_iff fun _ _ => MemberAnswer.members.inj, fetchAllMembersWithRolesChunked,
      fetchAllMembersWithRolesChunked, matching_withoutPending]
    exact drainMembers_filter_eq_iff
  | allMemberships userId =>
    rw [answer, answer, fetchAllMemberships, fetchAllMemberships, matching_visible]
    exact iff_of_true rfl trivial
  | members serverId ids =>
    rw [answer, answer, fetchMembers_withoutPending]
    exact iff_of_true rfl trivial
  | memberCount serverId =>
    rw [answer, answer, fetchMemberCount, fetchMemberCount, matching_visible]
    exact iff_of_true rfl trivial
  | serverCount userId =>
    rw [answer, answer, fetchServerCount, fetchServerCount, matching_visible]
    exact iff_of_true rfl trivial
  | mutualServerIds userA userB =>
    rw [← fetchMutualServerIds_withoutPending, fetchMutualServerIds, fetchMutualServerIds, ok.injEq]
    -- The query itself does not fail.
    change ok (MemberAnswer.servers _) = ok (MemberAnswer.servers _) ↔ _
    rw [ok.injEq, MemberAnswer.servers.injEq]

/-- Somebody leaves while they are timed out. The chunked query for all members
then panics, and the server still counts as mutual. -/
theorem queries_notice_pending_deletion :
    let left := runMembership some (returnEvents.take 1) silencedStore
    left.fetchMember "server" "staff-user" = .error .notFound ∧
      (MemberQuery.allMembersChunked "server").answer left =
        .error (.panic "Failed to fetch the next member") ∧
      (MemberQuery.allMembersChunked "server").answer left.withoutPending = .ok (.members []) ∧
      (MemberQuery.mutualServerIds "staff-user" "staff-user").answer left =
        .ok (.servers ["server"]) ∧
      (MemberQuery.mutualServerIds "staff-user" "staff-user").answer left.withoutPending =
        .ok (.servers []) :=
  ⟨rfl, rfl, rfl, rfl, rfl⟩

end Queries

/-! ## The generator of the reference driver -/

structure ReferenceGenerator where
  offset : Int
  data : Option (List Member)

namespace ReferenceGenerator

def newReference (data : List Member) : ReferenceGenerator where
  offset := 0
  data := some data

/-- `as i32` -/
def toInt32 (n : Nat) : Int := (n : Int).bmod 4294967296

/-- An offset that does not fit panics. -/
def next (generator : ReferenceGenerator) : Except Panic (Option Member × ReferenceGenerator) :=
  match generator.data with
  | some data =>
    if toInt32 data.length ≥ generator.offset then .ok (none, generator)
    else
      match data[(generator.offset % 18446744073709551616).toNat]? with
      | some member =>
        if generator.offset = 2147483647 then .error ⟨"attempt to add with overflow"⟩
        else .ok (some member, { generator with offset := generator.offset + 1 })
      | none => .error ⟨"index out of bounds"⟩
  | none => .ok (none, generator)

/-- What a number of calls return. -/
def take : Nat → ReferenceGenerator → Except Panic (List (Option Member))
  | 0, _ => .ok []
  | n + 1, generator =>
    match generator.next with
    | .ok (member, generator) => (take n generator).map (member :: ·)
    | .error panic => .error panic

variable {data : List Member}

theorem take_ended (ended : 0 ≤ toInt32 data.length) (n : Nat) :
    take n (newReference data) = .ok (replicate n none) := by
  have answered : (newReference data).next = .ok (none, newReference data) := by
    rw [next, newReference]
    exact if_pos ended
  induction n with
  | zero => rfl
  | succ n ih =>
    rw [take, answered]
    dsimp only
    rw [ih]
    rfl

/-- A length that is negative as a 32-bit number never ends the calls. -/
theorem next_of_negative (negative : toInt32 data.length < 0) {offset : Int} (start : 0 ≤ offset) :
    (∃ panic, next ⟨offset, some data⟩ = .error panic) ∨ offset ≠ 2147483647 ∧
      ∃ member, next ⟨offset, some data⟩ = .ok (some member, ⟨offset + 1, some data⟩) := by
  rw [next]
  simp only [ge_iff_le, not_le.mpr (negative.trans_le start), if_false]
  split
  · next member _ =>
    split
    · exact .inl ⟨_, rfl⟩
    · next fits => exact .inr ⟨fits, member, rfl⟩
  · exact .inl ⟨_, rfl⟩

theorem take_overflows (negative : toInt32 data.length < 0) {offset : Int} (start : 0 ≤ offset)
    {n : Nat} (last : offset + n = 2147483647) :
    ∃ panic, take (n + 1) ⟨offset, some data⟩ = .error panic := by
  induction n generalizing offset with
  | zero =>
    rw [take]
    rcases next_of_negative negative start with ⟨panic, failed⟩ | ⟨fits, _⟩
    · exact ⟨panic, by rw [failed]⟩
    · exact absurd (by omega) fits
  | succ n ih =>
    rw [take]
    rcases next_of_negative negative start with ⟨panic, failed⟩ | ⟨_, member, answered⟩
    · exact ⟨panic, by rw [failed]⟩
    · obtain ⟨panic, failed⟩ := @ih (offset + 1) (by omega) (by omega)
      exact ⟨panic, by rw [answered]; dsimp only; rw [failed]; rfl⟩

/-- The calls return every member in order, and nothing after them, only where
there are none: the first call skips a member. -/
theorem generator_yields_iff (data : List Member) :
    (∀ n, take n (newReference data) = .ok ((data.map some ++ replicate n none).take n)) ↔
      data = [] := by
  constructor
  · intro yields
    by_cases ended : 0 ≤ toInt32 data.length
    · have first := (take_ended ended 1).symm.trans (yields 1)
      cases data with
      | nil => rfl
      | cons member data => cases first
    · obtain ⟨n, last⟩ : ∃ n : Nat, (0 : Int) + n = 2147483647 := ⟨2147483647, by omega⟩
      obtain ⟨panic, failed⟩ := take_overflows (not_le.mp ended) le_rfl last
      cases failed.symm.trans (yields (n + 1))
  · rintro rfl n
    have ended : 0 ≤ toInt32 ([] : List Member).length := by decide
    rw [take_ended ended]
    simp

/-- A generator over one member returns nobody. -/
theorem single_member_skipped :
    ¬∀ n, take n (newReference [sampleMember]) =
      .ok (([sampleMember].map some ++ replicate n none).take n) := by
  intro yields
  cases (take_ended (by decide) 1).symm.trans (yields 1)

end ReferenceGenerator

end Company
