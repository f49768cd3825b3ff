import CompanyBackend.Routes.MemberEdit

/-!
# Server edits

The route that edits a server: its name and texts, icon and banner, the channels of its
system messages, its categories, and the flags. Which permission a field requires is spread
over several conditions on the payload.

The document that an accepted edit leaves is a function of the payload and the old document.
The changes that no check covers are read off it: one field is in none of the conditions, and
the removal list is checked for one permission whatever it lists.
-/

namespace Company

open Request Outcome Option List

structure DataEditServer where
  name : Option String := none
  description : Option String := none
  icon : Option String := none
  banner : Option String := none
  categories : Option (List Category) := none
  systemMessages : Option SystemMessageChannels := none
  flags : Option Int32 := none
  discoverable : Option Bool := none
  analytics : Option Bool := none
  remove : List FieldsServer := []
  deriving DecidableEq, Repr

def Category.valid (category : Category) : Bool :=
  lengthWithin 1 32 (some category.id) && lengthWithin 1 32 (some category.title)

open Category

namespace DataEditServer

variable (data : DataEditServer)

def valid : Bool :=
  lengthWithin 1 32 data.name && lengthWithin 0 1024 data.description &&
    data.categories.all fun categories => categories.all Category.valid

def changesNothing : Bool :=
  data.name.isNone && data.description.isNone && data.icon.isNone && data.banner.isNone &&
    data.systemMessages.isNone && data.categories.isNone && data.flags.isNone &&
    data.analytics.isNone && data.discoverable.isNone && data.remove.isEmpty

def managesServer : Bool :=
  data.name.isSome || data.description.isSome || data.icon.isSome || data.banner.isSome ||
    data.systemMessages.isSome || data.analytics.isSome || !data.remove.isEmpty

def checkFields (privileged : Bool) (permissions : PermissionValue) : Result Unit := do
  if data.managesServer then permissions.throwIfLackingChannelPermission .manageServer
  if data.flags.isSome && !privileged then throw .notPrivileged
  if data.categories.isSome then permissions.throwIfLackingChannelPermission .manageChannel

structure Permits (privileged : Bool) (permissions : PermissionValue) : Prop where
  manageServer : data.managesServer → permissions.hasChannelPermission .manageServer
  flags : data.flags.isSome → privileged
  manageChannel : data.categories.isSome → permissions.hasChannelPermission .manageChannel

variable {data : DataEditServer}

theorem permits_of_checkFields {privileged : Bool}
    {permissions : PermissionValue} (checked : data.checkFields privileged permissions = .ok ()) :
    data.Permits privileged permissions := by
  rw [checkFields] at checked
  obtain ⟨manageServer, checked⟩ := of_ite_bind_eq_ok checked
  obtain ⟨flags, checked⟩ := of_ite_bind_eq_ok checked
  refine ⟨fun set => ?_, fun set => ?_, fun set => ?_⟩
  · exact PermissionValue.throwIfLackingChannelPermission_ok (manageServer set)
  · by_contra unprivileged
    rw [Bool.not_eq_true] at unprivileged
    have refused : (data.flags.isSome && !privileged) = true := by
      rw [set, unprivileged]
      rfl
    cases flags refused
  · rw [if_pos set] at checked
    exact PermissionValue.throwIfLackingChannelPermission_ok checked

theorem permits_of_changesNothing (empty : data.changesNothing)
    (privileged : Bool) (permissions : PermissionValue) : data.Permits privileged permissions := by
  simp only [changesNothing, Bool.and_eq_true, isNone_iff_eq_none, List.isEmpty_iff] at empty
  refine ⟨fun set => ?_, fun set => ?_, fun set => ?_⟩ <;> simp [managesServer, empty] at set

end DataEditServer

open DataEditServer

/-- The set of channels; its order does not matter. -/
def SystemMessageChannels.intoChannelIds (channels : SystemMessageChannels) : List String :=
  [channels.userJoined, channels.userLeft, channels.userKicked, channels.userBanned].filterMap id

def checkSystemMessages (server : Server) (systemMessages : Option SystemMessageChannels) :
    Result Unit :=
  if systemMessages.all fun channels => channels.intoChannelIds.all server.channels.contains then
    .ok ()
  else .error .notFound

/-- The loop over the channels of one category. No channel may have been listed
before. -/
def takeChannels (listed : List String) : List String → Result (List String)
  | [] => .ok listed
  | channel :: channels =>
    if listed.contains channel then .error .invalidOperation
    else takeChannels (channel :: listed) channels

def Category.retain (server : Server) (category : Category) : Category :=
  { category with channels := category.channels.filter server.channels.contains }

def checkCategories (server : Server) (listed : List String) :
    List Category → Result (List Category)
  | [] => .ok []
  | category :: categories => do
    let listed ← takeChannels listed category.channels
    let categories ← checkCategories server listed categories
    return category.retain server :: categories

def newCategories (server : Server) : Option (List Category) → Result (Option (List Category))
  | some categories => return some (← checkCategories server [] categories)
  | none => return none

def File.useServerIcon : (id parent uploaderId : String) → Route File :=
  useFor "icons" .serverIcon

def File.useServerBanner : (id parent uploaderId : String) → Route File :=
  useFor "banners" .serverBanner

variable (data : DataEditServer)

variable (categories : Option (List Category)) (icon banner : Option File)

/-- The fields that the payload sets, with the categories and the files as they
are stored. -/
def DataEditServer.toPartial : PartialServer where
  name := data.name
  description := data.description
  categories := categories
  systemMessages := data.systemMessages
  flags := data.flags
  discoverable := data.discoverable
  analytics := data.analytics
  icon := icon
  banner := banner

theorem DataEditServer.toPartial_keyed :
    ∀ roles ∈ (data.toPartial categories icon banner).roles, RolesKeyed roles := by
  rintro _ ⟨⟩

/-- The part of the route that writes to the store, once all permissions are
checked. -/
def applyServerEdit (user : User) (server : Server) (data : DataEditServer) : Route Server := do
  markDeleted (if data.remove.contains .banner then server.banner else none)
  markDeleted (if data.remove.contains .icon then server.icon else none)
  Route.lift (checkSystemMessages server data.systemMessages)
  let categories ← Route.lift (newCategories server data.categories)
  let icon ← onPayload (fun id => File.useServerIcon id server.id user.id) data.icon
  let banner ← onPayload (fun id => File.useServerBanner id server.id user.id) data.banner
  let snapshot := { server with icon := icon <|> server.icon, banner := banner <|> server.banner }
  snapshot.update (data.toPartial categories icon banner) data.remove
    (data.toPartial_keyed categories icon banner)

/-- `PATCH /servers/<target>` -/
def editServer (describe : DataEditServer → String) (now : Timestamp) (user : User)
    (target : String) (data : DataEditServer) : Route Server := do
  ensure data.valid (.error (.failedValidation (describe data)))
  let server ← Route.fetch fun db => db.fetchServer target
  let (permissions, _) ← Route.ask
    (fun db => (DatabasePermissionQuery.new db now user).withServer server)
    PermissionQuery.calculateServerPermissions
  if data.changesNothing then return server
  else do
    Route.lift (data.checkFields user.privileged permissions)
    applyServerEdit user server data

/-! ## The document that an edit leaves -/

/-- What a payload without the field, one that sets it and one that removes it
leave. -/
theorem Server.foldl_removeField_eq (remove : List FieldsServer) (server : Server) :
    remove.foldl removeField server =
      { server with
        description := if remove.contains .description then none else server.description
        categories := if remove.contains .categories then none else server.categories
        systemMessages := if remove.contains .systemMessages then none else server.systemMessages
        icon := if remove.contains .icon then none else server.icon
        banner := if remove.contains .banner then none else server.banner } := by
  induction remove generalizing server with
  | nil => rfl
  | cons field remove ih =>
    rw [foldl_cons, ih]
    cases field <;> simp [removeField]

variable {server : Server}

theorem checkCategories_eq_ok {listed : List String} {categories categories' : List Category}
    (checked : checkCategories server listed categories = .ok categories') :
    categories' = categories.map (retain server) := by
  induction categories generalizing listed categories' with
  | nil =>
    cases checked
    rfl
  | cons category categories ih =>
    obtain ⟨listed', _, checked⟩ := bind_eq_ok.mp checked
    obtain ⟨rest, later, ⟨⟩⟩ := bind_eq_ok.mp checked
    rw [map_cons, ih later]

theorem newCategories_eq_ok {categories categories' : Option (List Category)}
    (checked : newCategories server categories = .ok categories') :
    categories' = categories.map (map (retain server)) := by
  cases categories with
  | none =>
    cases checked
    rfl
  | some categories =>
    obtain ⟨rest, retained, ⟨⟩⟩ := bind_eq_ok.mp checked
    rw [map_some, checkCategories_eq_ok retained]

/-- The payload named no file, or one that nobody had claimed; now it is
claimed. -/
structure MongoDb.ClaimsFile (db db' : MongoDb) (payload : Option String) (file : Option File) :
    Prop where
  servers : db'.servers = db.servers
  found : file = payload.bind db.attachments.find
  named : file.isSome = payload.isSome
  unclaimed : ∀ f ∈ file, f.usedFor = none
  claimed : ∀ id ∈ payload, ∀ f, db'.attachments.find id = some f → f.usedFor ≠ none
  others : ∀ other, payload ≠ some other → db'.attachments.find other = db.attachments.find other

section Files

variable {db db' db'' : MongoDb} {tag parent uploaderId : String} {objectType : FileUsedForType}

theorem onPayload_claimsFile (payload : Option String) :
    Outcome (onPayload (fun id => File.useFor tag objectType id parent uploaderId) payload)
      db fun r db' => ∀ file, r = .ok file → db.ClaimsFile db' payload file := by
  cases payload with
  | none =>
    rintro _ ⟨⟩
    exact ⟨rfl, rfl, rfl, by simp, by simp, fun _ _ => rfl⟩
  | some id =>
    rcases File.useFor_cases tag objectType id parent uploaderId db with
      ⟨e, refused⟩ | ⟨file, found, unclaimed, ran⟩
    · rw [Outcome, onPayload, bind_of_error refused]
      rintro _ ⟨⟩
    · rw [Outcome, onPayload, bind_of_ok ran]
      rintro _ ⟨⟩
      refine ⟨rfl, found.symm, rfl, ?_, ?_, ?_⟩
      · rintro _ ⟨⟩
        exact unclaimed
      · rintro _ ⟨⟩ f stored
        change (db.useAttachment id _ uploaderId).attachments.find id = some f at stored
        rw [MongoDb.find_useAttachment, found, map_some] at stored
        cases stored
        exact some_ne_none _
      · intro other ne
        exact db.find_useAttachment_ne (fun same => ne (congrArg some same.symm)) _ uploaderId

/-- The second of two claims does not see the first: a file is not claimed
twice. -/
theorem MongoDb.ClaimsFile.find_before {first second : Option String} {file file' : Option File}
    (icon : db.ClaimsFile db' first file) (banner : db'.ClaimsFile db'' second file') :
    file' = second.bind db.attachments.find := by
  cases second with
  | none => exact banner.found
  | some id =>
    rw [banner.found, bind_some, bind_some]
    apply icon.others
    rintro rfl
    have named := banner.named
    rw [banner.found, bind_some] at named
    obtain ⟨f, stored⟩ := isSome_iff_exists.mp named
    have unclaimed := banner.unclaimed f (banner.found.trans stored)
    exact icon.claimed id rfl f stored unclaimed

end Files

/-- The store once the files of removed fields are marked as deleted. -/
def MongoDb.markRemoved (db : MongoDb) (server : Server) (remove : List FieldsServer) : MongoDb :=
  let marked := (if remove.contains .banner then server.banner else none).elim db
    fun file => db.markAttachmentAsDeleted file.id
  (if remove.contains .icon then server.icon else none).elim marked
    fun file => marked.markAttachmentAsDeleted file.id

theorem markDeleted_eq (file : Option File) (db : MongoDb) :
    markDeleted file db = (.ok (), file.elim db fun file =>
      db.markAttachmentAsDeleted file.id) := by
  cases file <;> rfl

/-- The document was updated as the payload says; a field is not set and removed
at once. -/
structure MongoDb.EditsServer (db db' : MongoDb) (data : DataEditServer) (server server' : Server)
    (icon banner : Option File) : Prop where
  written : db'.servers.find server.id = some server'
  updated : server' = server.updated
    (data.toPartial (data.categories.map (List.map (retain server))) icon banner)
    data.remove
  compatible : data.remove.any (FieldsServer.conflicts
    (data.toPartial (data.categories.map (List.map (retain server))) icon banner)) = false
  iconFile : icon = data.icon.bind (db.markRemoved server data.remove).attachments.find
  iconNamed : icon.isSome = data.icon.isSome
  bannerFile : banner = data.banner.bind (db.markRemoved server data.remove).attachments.find
  bannerNamed : banner.isSome = data.banner.isSome

variable {describe : DataEditServer → String} {now : Timestamp}

section Editing

variable {user : User} {target : String}
variable {data : DataEditServer} {db db' : MongoDb}

theorem MongoDb.markRemoved_servers (db : MongoDb) (server : Server) (remove : List FieldsServer) :
    (db.markRemoved server remove).servers = db.servers := by
  unfold markRemoved
  cases (if remove.contains .banner then server.banner else none) <;>
    cases (if remove.contains .icon then server.icon else none) <;> rfl

theorem applyServerEdit_outcome (stored : db.servers.find server.id = some server) :
    Outcome (applyServerEdit user server data) db fun r db' =>
      ∀ returned, r = .ok returned →
        ∃ server' icon banner, db.EditsServer db' data server server' icon banner := by
  have refused : ∀ e : Failure, ∀ db' : MongoDb, ∀ returned,
      (.error e : Except Failure Server) = .ok returned →
        ∃ server' icon banner, db.EditsServer db' data server server' icon banner := by
    rintro _ _ _ ⟨⟩
  have marked := db.markRemoved_servers server data.remove
  rw [applyServerEdit]
  apply ran_bind (markDeleted_eq _ db)
  apply ran_bind (markDeleted_eq _ _)
  apply lift_bind _ fun e => refused e _
  intro _ _
  apply lift_bind _ fun e => refused e _
  intro categories checked
  obtain rfl := newCategories_eq_ok checked
  apply Outcome.bind (onPayload_claimsFile data.icon) _ fun e db' _ => refused e db'
  intro icon db₁ claims
  have claimsIcon : (db.markRemoved server data.remove).ClaimsFile db₁ data.icon icon :=
    claims icon rfl
  apply Outcome.bind (onPayload_claimsFile data.banner) _ fun e db' _ => refused e db'
  intro banner db₂ claims
  have claimsBanner := claims banner rfl
  have located : db₂.servers.find server.id = some server := by
    rwa [claimsBanner.servers, claimsIcon.servers, marked]
  apply update_bind _ fun e => refused e _
  rintro db' written returned -
  refine ⟨_, icon, banner, (MongoDb.updateServer_changes located written).after, rfl, ?_,
    claimsIcon.found, claimsIcon.named, claimsIcon.find_before claimsBanner, claimsBanner.named⟩
  rw [MongoDb.updateServer] at written
  split at written
  · cases written
  · next compatible =>
    rw [Bool.or_eq_true, not_or, Bool.not_eq_true] at compatible
    exact compatible.1

/-- An empty payload is an edit that changes nothing. -/
theorem MongoDb.EditsServer.refl (empty : data.changesNothing)
    (stored : db.servers.find server.id = some server) :
    db.EditsServer db data server server none none := by
  simp only [changesNothing, Bool.and_eq_true, isNone_iff_eq_none, List.isEmpty_iff] at empty
  obtain ⟨⟨⟨⟨⟨⟨⟨⟨⟨name, description⟩, icon⟩, banner⟩, systemMessages⟩, categories⟩, flags⟩,
    analytics⟩, discoverable⟩, remove⟩ := empty
  refine ⟨stored, ?_, ?_, ?_, ?_, ?_, ?_⟩
  · simp only [DataEditServer.toPartial, name, description, systemMessages, categories, flags,
      analytics, discoverable, remove]
    rfl
  · rw [remove]
    rfl
  · rw [icon]
    rfl
  · rw [icon]
    rfl
  · rw [banner]
    rfl
  · rw [banner]
    rfl

/-- The checks are passed, and the document is the one that the payload
describes. An empty payload passes them as well. -/
theorem editServer_outcome :
    Outcome (editServer describe now user target data) db fun r db' =>
      ∀ returned, r = .ok returned → ∃ server server' icon banner,
        db.servers.find target = some server ∧
        data.Permits user.privileged (serverPermissions now server user (db.memberOf server user)) ∧
        db.EditsServer db' data server server' icon banner := by
  rw [editServer]
  apply ensure_bind _ fun _ => by rintro _ ⟨⟩
  intro _
  apply find_bind _ fun e => by rintro _ ⟨⟩
  intro server stored
  have sameServer : server.id = target := Collection.key_of_find stored
  have located : db.servers.find server.id = some server := sameServer ▸ stored
  apply ask_bind (db.serverQuery_run now user server)
  dsimp only
  split
  · next empty =>
    rintro returned -
    exact ⟨server, server, none, none, stored,
      permits_of_changesNothing empty _ _, .refl empty located⟩
  · apply lift_bind _ fun e => by rintro _ ⟨⟩
    intro _ checked
    apply (applyServerEdit_outcome located).mono
    intro r db' edits returned accepted
    obtain ⟨server', icon, banner, edits⟩ := edits returned accepted
    exact ⟨server, server', icon, banner, stored, permits_of_checkFields checked, edits⟩

end Editing

/-- The changes of a server are covered by what the user may do. -/
structure ServerEditAuthorised (db : MongoDb) (user : User) (held : PermissionValue)
    (before after : Server) : Prop where
  settings : { after with categories := before.categories, flags := before.flags } ≠ before →
    held.hasChannelPermission .manageServer
  categories : after.categories ≠ before.categories → held.hasChannelPermission .manageChannel
  flags : after.flags ≠ before.flags → user.privileged
  stranger : user.privileged = false → db.memberOf before user = none → after = before

/-- An optional field is set to the value it has, and removed only if it has
none. -/
structure KeepsField {α : Type} (set : Option α) (removed : Bool) (stored : Option α) : Prop where
  set : ∀ value ∈ set, stored = some value
  removed : removed → stored = none

theorem keepsField_iff {α : Type} {set : Option α} {removed : Bool}
    (apart : removed → set.isSome = false) (stored : Option α) :
    (set <|> if removed then none else stored) = stored ↔ KeepsField set removed stored := by
  constructor
  · intro kept
    refine ⟨?_, ?_⟩
    · rintro value rfl
      exact kept.symm
    · rintro rfl
      have unset : set = none := by
        rw [← not_isSome_iff_eq_none, apart rfl]
        exact Bool.false_ne_true
      rw [unset] at kept
      exact kept.symm
  · rintro ⟨kept, cleared⟩
    cases set with
    | some value => exact (kept value rfl).symm
    | none =>
      cases removed with
      | true => exact (cleared rfl).symm
      | false => rfl

/-- The payload describes the server as it is. -/
structure DataEditServer.KeepsServer (db : MongoDb) (server : Server) : Prop where
  name : data.name.getD server.name = server.name
  description : KeepsField data.description (data.remove.contains .description) server.description
  categories : KeepsField (data.categories.map (List.map (retain server)))
    (data.remove.contains .categories) server.categories
  systemMessages : KeepsField data.systemMessages (data.remove.contains .systemMessages)
    server.systemMessages
  icon : KeepsField (data.icon.bind (db.markRemoved server data.remove).attachments.find)
    (data.remove.contains .icon) server.icon
  banner : KeepsField (data.banner.bind (db.markRemoved server data.remove).attachments.find)
    (data.remove.contains .banner) server.banner
  flags : (data.flags <|> server.flags) = server.flags
  analytics : data.analytics.getD server.analytics = server.analytics
  discoverable : data.discoverable.getD server.discoverable = server.discoverable

section Authorisation

variable {user : User} {target : String}
variable {data : DataEditServer} {db db' : MongoDb} {server server' : Server}
variable {icon banner : Option File}

/-- A user who is neither privileged nor the owner nor a member has no
permission. -/
theorem serverPermissions_stranger (now : Timestamp) (unprivileged : user.privileged = false)
    (other : user.id ≠ server.owner) : serverPermissions now server user none = (0 : UInt64) := by
  have restricted : user.unrestricted server = false := by
    simp [User.unrestricted, unprivileged, Ne.symm other]
  rw [serverPermissions, restricted]
  rfl

/-- What the checks leave open. Nobody asks for a permission to change
`discoverable`, and removing the categories is checked as if they were a
setting. An owner holds all permissions, as a member or not. -/
structure DataEditServer.ClosesGaps (data : DataEditServer) (db : MongoDb) (user : User)
    (held : PermissionValue) (server : Server) : Prop where
  discoverable : data.discoverable.getD server.discoverable ≠ server.discoverable →
    held.hasChannelPermission .manageServer
  categories : data.remove.contains .categories → server.categories ≠ none →
    held.hasChannelPermission .manageChannel
  owner : user.privileged = false → db.memberOf server user = none → user.id = server.owner →
    data.KeepsServer db server

section Edits

variable (edits : db.EditsServer db' data server server' icon banner)
include edits

theorem MongoDb.EditsServer.eq : server' =
      { server with
        name := data.name.getD server.name
        description := data.description <|>
          if data.remove.contains .description then none else server.description
        categories := data.categories.map (map (retain server)) <|>
          if data.remove.contains .categories then none else server.categories
        systemMessages := data.systemMessages <|>
          if data.remove.contains .systemMessages then none else server.systemMessages
        icon := icon <|> if data.remove.contains .icon then none else server.icon
        banner := banner <|> if data.remove.contains .banner then none else server.banner
        flags := data.flags <|> server.flags
        analytics := data.analytics.getD server.analytics
        discoverable := data.discoverable.getD server.discoverable } := by
  rw [edits.updated, Server.updated, Server.foldl_removeField_eq]
  rfl

theorem MongoDb.EditsServer.unset (field : FieldsServer) (removed : data.remove.contains field) :
    field.conflicts (data.toPartial (data.categories.map (map (retain server)))
      icon banner) = false := by
  have compatible := any_eq_false.mp edits.compatible
  exact Bool.not_eq_true _ ▸ compatible field (contains_iff_mem.mp removed)

theorem MongoDb.EditsServer.unchanged_iff : server' = server ↔ data.KeepsServer db server := by
  have description := keepsField_iff (edits.unset .description) server.description
  have categories := keepsField_iff (edits.unset .categories) server.categories
  have systemMessages := keepsField_iff (edits.unset .systemMessages) server.systemMessages
  have icon := keepsField_iff (edits.unset .icon) server.icon
  have banner := keepsField_iff (edits.unset .banner) server.banner
  dsimp only [DataEditServer.toPartial] at description categories systemMessages icon banner
  constructor
  · intro same
    rw [edits.eq] at same
    exact
      { name := congrArg Server.name same
        description := description.mp (congrArg Server.description same)
        categories := categories.mp (congrArg Server.categories same)
        systemMessages := systemMessages.mp (congrArg Server.systemMessages same)
        icon := edits.iconFile ▸ icon.mp (congrArg Server.icon same)
        banner := edits.bannerFile ▸ banner.mp (congrArg Server.banner same)
        flags := congrArg Server.flags same
        analytics := congrArg Server.analytics same
        discoverable := congrArg Server.discoverable same }
  · intro keeps
    have keptIcon := keeps.icon
    have keptBanner := keeps.banner
    rw [← edits.iconFile] at keptIcon
    rw [← edits.bannerFile] at keptBanner
    rw [edits.eq, keeps.name, description.mpr keeps.description, categories.mpr keeps.categories,
      systemMessages.mpr keeps.systemMessages, icon.mpr keptIcon, banner.mpr keptBanner,
      keeps.flags, keeps.analytics, keeps.discoverable]

/-- Without a field that is checked for `ManageServer`, the rest of the server
stays the same but for one field. -/
theorem MongoDb.EditsServer.settings_eq (unmanaged : data.managesServer = false) :
    { server' with categories := server.categories, flags := server.flags } =
      { server with discoverable := data.discoverable.getD server.discoverable } := by
  simp only [managesServer, Bool.or_eq_false_iff, isSome_eq_false_iff,
    isNone_iff_eq_none, Bool.not_eq_false', List.isEmpty_iff] at unmanaged
  obtain ⟨⟨⟨⟨⟨⟨name, description⟩, noIcon⟩, noBanner⟩, systemMessages⟩, analytics⟩, remove⟩ :=
    unmanaged
  rw [edits.eq, edits.iconFile, edits.bannerFile, name, description, noIcon, noBanner,
    systemMessages, analytics, remove]
  rfl

theorem MongoDb.EditsServer.flags_eq
    (unset : data.flags.isSome = false) : server'.flags = server.flags := by
  rw [isSome_eq_false_iff, isNone_iff_eq_none] at unset
  rw [edits.eq, unset]
  rfl

theorem MongoDb.EditsServer.categories_eq (unset : data.categories.isSome = false)
    (kept : data.remove.contains .categories → server.categories = none) :
    server'.categories = server.categories := by
  rw [isSome_eq_false_iff, isNone_iff_eq_none] at unset
  have keeps : KeepsField (data.categories.map (map (retain server)))
      (data.remove.contains .categories) server.categories := by
    rw [unset]
    exact ⟨by simp, kept⟩
  rw [edits.eq]
  exact (keepsField_iff (edits.unset .categories) _).mpr keeps

/-- A payload that passes the checks without any permission sets one field at
most. -/
theorem MongoDb.EditsServer.eq_of_stranger (permits : data.Permits false (0 : UInt64))
    (same : data.discoverable.getD server.discoverable = server.discoverable) :
    server' = server := by
  have unmanaged : data.managesServer = false := by
    by_contra managed
    cases permits.manageServer (Bool.not_eq_false _ ▸ managed)
  have sameFlags : server'.flags = server.flags := by
    apply edits.flags_eq
    by_contra set
    cases permits.flags (Bool.not_eq_false _ ▸ set)
  have noRemoval : data.remove = [] := by
    simp only [managesServer, Bool.or_eq_false_iff, Bool.not_eq_false',
      List.isEmpty_iff] at unmanaged
    exact unmanaged.2
  have sameCategories : server'.categories = server.categories := by
    apply edits.categories_eq
    · by_contra set
      cases permits.manageChannel (Bool.not_eq_false _ ▸ set)
    · rw [noRemoval]
      rintro ⟨⟩
  calc server'
    _ = { server' with categories := server.categories, flags := server.flags } := by
        rw [← sameCategories, ← sameFlags]
    _ = { server with discoverable := data.discoverable.getD server.discoverable } :=
        edits.settings_eq unmanaged
    _ = server := by rw [same]

theorem MongoDb.EditsServer.closesGaps {held : PermissionValue}
    (authorised : ServerEditAuthorised db user held server server') :
    data.ClosesGaps db user held server where
  discoverable := by
    intro changed
    apply authorised.settings
    intro same
    have kept := congrArg Server.discoverable same
    rw [edits.eq] at kept
    exact changed kept
  categories := by
    intro removed stored
    apply authorised.categories
    intro same
    rw [edits.eq] at same
    have keeps := (keepsField_iff (edits.unset .categories) _).mp same
    exact stored (keeps.removed removed)
  owner := by
    intro unprivileged outside _
    exact edits.unchanged_iff.mp (authorised.stranger unprivileged outside)

theorem MongoDb.EditsServer.authorised (permits : data.Permits user.privileged
      (serverPermissions now server user (db.memberOf server user)))
    (closes : data.ClosesGaps db user
      (serverPermissions now server user (db.memberOf server user)) server) :
    ServerEditAuthorised db user (serverPermissions now server user (db.memberOf server user))
      server server' where
  settings := by
    intro changed
    cases managed : data.managesServer with
    | true => exact permits.manageServer managed
    | false =>
      apply closes.discoverable
      intro same
      rw [edits.settings_eq managed, same] at changed
      exact changed rfl
  categories := by
    intro changed
    cases set : data.categories.isSome with
    | true => exact permits.manageChannel set
    | false =>
      by_contra lacking
      refine changed (edits.categories_eq set fun removed => ?_)
      by_contra stored
      exact lacking (closes.categories removed stored)
  flags := by
    intro changed
    cases set : data.flags.isSome with
    | true => exact permits.flags set
    | false => exact absurd (edits.flags_eq set) changed
  stranger := by
    intro unprivileged outside
    by_cases owner : user.id = server.owner
    · exact edits.unchanged_iff.mpr (closes.owner unprivileged outside owner)
    · have nothing : serverPermissions now server user (db.memberOf server user) =
          (0 : UInt64) := by
        rw [outside, serverPermissions_stranger now unprivileged owner]
      rw [unprivileged, nothing] at permits
      apply edits.eq_of_stranger permits
      by_contra changed
      have granted := closes.discoverable changed
      rw [nothing] at granted
      cases granted

end Edits

/-- An accepted edit of a server is authorised exactly if the gaps of the checks
do no harm: the editor holds the permissions that are not asked for, or the edit
does not change what they are about. -/
theorem serverEdit_authorised_iff {held : PermissionValue} {returned : Server}
    (ran : editServer describe now user target data db = (.ok returned, db'))
    (found : db.servers.find target = some server) (found' : db'.servers.find target = some server')
    (heldValue : db.CalculatesServer now user server held) :
    ServerEditAuthorised db user held server server' ↔ data.ClosesGaps db user held server := by
  rw [MongoDb.calculatesServer_iff] at heldValue
  subst heldValue
  obtain ⟨server₁, server₂, icon, banner, stored, permits, edits⟩ :=
    editServer_outcome.elim ran returned rfl
  cases found.symm.trans stored
  have written := edits.written
  rw [Collection.key_of_find found, found'] at written
  cases written
  exact ⟨edits.closesGaps, edits.authorised permits⟩

end Authorisation

def joinedOwner : Member where
  id := { server := "server", user := "owner" }

def ownedStore : MongoDb :=
  { sampleStore with serverMembers := .ofDocuments [.ofMember joinedOwner, .ofMember guestMember] }

def makeDiscoverable : DataEditServer where
  discoverable := some true

theorem serverEdit_authorised_iff_sample :
    ServerEditAuthorised ownedStore ownerUser (.ofChannelPermission .grantAllSafe) sampleServer
      { sampleServer with discoverable := true } := by
  have ran : editServer (fun _ => "") 0 ownerUser "server" makeDiscoverable ownedStore =
      (.ok { sampleServer with discoverable := true },
        (editServer (fun _ => "") 0 ownerUser "server" makeDiscoverable ownedStore).2) := rfl
  have held : ownedStore.CalculatesServer 0 ownerUser sampleServer
      (.ofChannelPermission .grantAllSafe) := MongoDb.calculatesServer_iff.mpr rfl
  refine (serverEdit_authorised_iff ran rfl rfl held).mpr ⟨?_, ?_, ?_⟩
  · intro _
    decide
  · rintro ⟨⟩
  · rintro _ ⟨⟩

def strangerUser : User where
  id := "stranger"

/-- Someone who is not even a member makes the server discoverable, since no
permission is asked for that field. -/
theorem serverEdit_by_stranger :
    editServer (fun _ => "") 0 strangerUser "server" makeDiscoverable sampleStore =
        (.ok { sampleServer with discoverable := true },
          (editServer (fun _ => "") 0 strangerUser "server" makeDiscoverable sampleStore).2) ∧
      sampleStore.servers.find "server" = some sampleServer ∧
      (editServer (fun _ => "") 0 strangerUser "server" makeDiscoverable
        sampleStore).2.servers.find "server" = some { sampleServer with discoverable := true } ∧
      ¬ServerEditAuthorised sampleStore strangerUser
        (serverPermissions 0 sampleServer strangerUser
          (sampleStore.memberOf sampleServer strangerUser))
        sampleServer { sampleServer with discoverable := true } := by
  refine ⟨rfl, rfl, rfl, ?_⟩
  intro authorised
  have unchanged := authorised.stranger rfl rfl
  cases congrArg Server.discoverable unchanged

end Company
