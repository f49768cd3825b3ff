import CompanyBackend.Library.LayerStack
import CompanyBackend.Result
import Mathlib.Data.Fin.Basic
import Mathlib.Order.BooleanAlgebra.Basic
import Mathlib.Tactic.FinCases

/-!
# Permission values and overrides

The permission words of the backend are 64-bit masks: `u64` in memory and `i64`
in the database, with `as` reinterpreting the bits in both directions. Overrides
are applied by first setting the allowed bits and then clearing the denied ones.

`hasBit` reads one bit of a word. Read at one bit, an override is a layer of a
`LayerStack` that denies, grants or stays silent, and applying a list of overrides
is resolving the stack of those layers.
-/

namespace Company

abbrev Bit := Fin 64

def hasBit (word : UInt64) (bit : Bit) : Bool := word.toBitVec.getLsbD bit

@[simp] theorem hasBit_or (a b : UInt64) (bit : Bit) :
    hasBit (a ||| b) bit = (hasBit a bit || hasBit b bit) := by
  simp [hasBit]

@[simp] theorem hasBit_and (a b : UInt64) (bit : Bit) :
    hasBit (a &&& b) bit = (hasBit a bit && hasBit b bit) := by
  simp [hasBit]

@[simp] theorem hasBit_not (a : UInt64) (bit : Bit) : hasBit (~~~a) bit = !hasBit a bit := by
  simp [hasBit]

@[simp] theorem hasBit_zero (bit : Bit) : hasBit 0 bit = false := by
  simp [hasBit]

theorem word_ext {a b : UInt64} (same : ∀ bit, hasBit a bit = hasBit b bit) : a = b := by
  apply UInt64.toBitVec_inj.mp
  apply BitVec.eq_of_getLsbD_eq
  intro i hi
  exact same ⟨i, hi⟩

/-- Permissions against a channel or a server, with their documented bits. -/
inductive ChannelPermission where
  | manageChannel | manageServer | managePermissions | manageRole | manageCustomisation
  | kickMembers | banMembers | timeoutMembers | assignRoles | changeNickname
  | manageNicknames | changeAvatar | removeAvatars
  | viewChannel | readMessageHistory | sendMessage | manageMessages | manageWebhooks
  | inviteOthers | sendEmbeds | uploadFiles | masquerade | react
  | connect | speak | video | muteMembers | deafenMembers | moveMembers | listen
  | mentionEveryone | mentionRoles
  | grantAllSafe | grantAll
  deriving DecidableEq, Repr

namespace ChannelPermission

/-- The discriminant, `permission as u64`. -/
def toU64 : ChannelPermission → UInt64
  | manageChannel => (1 : UInt64) <<< 0
  | manageServer => (1 : UInt64) <<< 1
  | managePermissions => (1 : UInt64) <<< 2
  | manageRole => (1 : UInt64) <<< 3
  | manageCustomisation => (1 : UInt64) <<< 4
  | kickMembers => (1 : UInt64) <<< 6
  | banMembers => (1 : UInt64) <<< 7
  | timeoutMembers => (1 : UInt64) <<< 8
  | assignRoles => (1 : UInt64) <<< 9
  | changeNickname => (1 : UInt64) <<< 10
  | manageNicknames => (1 : UInt64) <<< 11
  | changeAvatar => (1 : UInt64) <<< 12
  | removeAvatars => (1 : UInt64) <<< 13
  | viewChannel => (1 : UInt64) <<< 20
  | readMessageHistory => (1 : UInt64) <<< 21
  | sendMessage => (1 : UInt64) <<< 22
  | manageMessages => (1 : UInt64) <<< 23
  | manageWebhooks => (1 : UInt64) <<< 24
  | inviteOthers => (1 : UInt64) <<< 25
  | sendEmbeds => (1 : UInt64) <<< 26
  | uploadFiles => (1 : UInt64) <<< 27
  | masquerade => (1 : UInt64) <<< 28
  | react => (1 : UInt64) <<< 29
  | connect => (1 : UInt64) <<< 30
  | speak => (1 : UInt64) <<< 31
  | video => (1 : UInt64) <<< 32
  | muteMembers => (1 : UInt64) <<< 33
  | deafenMembers => (1 : UInt64) <<< 34
  | moveMembers => (1 : UInt64) <<< 35
  | listen => (1 : UInt64) <<< 36
  | mentionEveryone => (1 : UInt64) <<< 37
  | mentionRoles => (1 : UInt64) <<< 38
  | grantAllSafe => 0x000FFFFFFFFFFFFF
  | grantAll => 0xFFFFFFFFFFFFFFFF

/-- The name printed in a `MissingPermission` error. -/
def display : ChannelPermission → String
  | manageChannel => "ManageChannel"
  | manageServer => "ManageServer"
  | managePermissions => "ManagePermissions"
  | manageRole => "ManageRole"
  | manageCustomisation => "ManageCustomisation"
  | kickMembers => "KickMembers"
  | banMembers => "BanMembers"
  | timeoutMembers => "TimeoutMembers"
  | assignRoles => "AssignRoles"
  | changeNickname => "ChangeNickname"
  | manageNicknames => "ManageNicknames"
  | changeAvatar => "ChangeAvatar"
  | removeAvatars => "RemoveAvatars"
  | viewChannel => "ViewChannel"
  | readMessageHistory => "ReadMessageHistory"
  | sendMessage => "SendMessage"
  | manageMessages => "ManageMessages"
  | manageWebhooks => "ManageWebhooks"
  | inviteOthers => "InviteOthers"
  | sendEmbeds => "SendEmbeds"
  | uploadFiles => "UploadFiles"
  | masquerade => "Masquerade"
  | react => "React"
  | connect => "Connect"
  | speak => "Speak"
  | video => "Video"
  | muteMembers => "MuteMembers"
  | deafenMembers => "DeafenMembers"
  | moveMembers => "MoveMembers"
  | listen => "Listen"
  | mentionEveryone => "MentionEveryone"
  | mentionRoles => "MentionRoles"
  | grantAllSafe => "GrantAllSafe"
  | grantAll => "GrantAll"

/-- The sum of two permissions is the union of their bits. -/
def add (a b : ChannelPermission) : UInt64 := a.toU64 ||| b.toU64

end ChannelPermission

open ChannelPermission

def ALLOW_IN_TIMEOUT : UInt64 := viewChannel.add readMessageHistory

def DEFAULT_PERMISSION_VIEW_ONLY : UInt64 := viewChannel.add readMessageHistory

def DEFAULT_PERMISSION : UInt64 :=
  DEFAULT_PERMISSION_VIEW_ONLY ||| (sendMessage.add inviteOthers ||| sendEmbeds.toU64 |||
    uploadFiles.toU64 ||| connect.toU64 ||| speak.toU64 ||| listen.toU64 ||| video.toU64)

def DEFAULT_PERMISSION_SAVED_MESSAGES : UInt64 := grantAllSafe.toU64

def DEFAULT_PERMISSION_DIRECT_MESSAGE : UInt64 := DEFAULT_PERMISSION ||| manageChannel.add react

def DEFAULT_PERMISSION_SERVER : UInt64 :=
  DEFAULT_PERMISSION ||| (react.add changeNickname ||| changeAvatar.toU64)

/-- Permissions against a user, of type `u32` and widened to `u64` on use. -/
inductive UserPermission where
  | access | viewProfile | sendMessage | invite
  deriving DecidableEq, Repr

def UserPermission.toU64 : UserPermission → UInt64
  | access => (1 : UInt64) <<< 0
  | viewProfile => (1 : UInt64) <<< 1
  | sendMessage => (1 : UInt64) <<< 2
  | invite => (1 : UInt64) <<< 3

/-- A permission override as the calculations use it. -/
structure Override where
  allow : UInt64 := 0
  deny : UInt64 := 0
  deriving DecidableEq, Repr

/-- A permission override as it is stored, in signed words. -/
structure OverrideField where
  a : Int64 := 0
  d : Int64 := 0
  deriving DecidableEq, Repr

instance : Inhabited Override := ⟨{}⟩
instance : Inhabited OverrideField := ⟨{}⟩

def OverrideField.toOverride (field : OverrideField) : Override :=
  { allow := field.a.toUInt64, deny := field.d.toUInt64 }

def Override.toField (o : Override) : OverrideField :=
  { a := o.allow.toInt64, d := o.deny.toInt64 }

@[simp] theorem Override.toField_toOverride (o : Override) : o.toField.toOverride = o := rfl

/-- What an override says about one bit. A deny beats an allow. -/
def Override.layer (o : Override) (bit : Bit) : Option Bool :=
  if hasBit o.deny bit then some false else if hasBit o.allow bit then some true else none

@[simp] theorem Override.layer_default (bit : Bit) : ({} : Override).layer bit = none := by
  simp [layer]

@[simp] theorem OverrideField.layer_default (bit : Bit) :
    ({} : OverrideField).toOverride.layer bit = none :=
  Override.layer_default bit

structure PermissionValue where
  raw : UInt64
  deriving DecidableEq, Repr

namespace PermissionValue

variable (p : PermissionValue)

instance : Coe UInt64 PermissionValue := ⟨fun raw => ⟨raw⟩⟩

def ofI64 (v : Int64) : PermissionValue := ⟨v.toUInt64⟩

variable (permission : ChannelPermission)

def ofChannelPermission : PermissionValue := ⟨permission.toU64⟩

variable (v : UInt64) (b : Bit)

def allow : PermissionValue := ⟨p.raw ||| v⟩

def revoke : PermissionValue := ⟨p.raw &&& ~~~v⟩

def revokeAll (_ : PermissionValue) : PermissionValue := ⟨0⟩

def restrict : PermissionValue := ⟨p.raw &&& v⟩

def apply (o : Override) : PermissionValue := (p.allow o.allow).revoke o.deny

/-- Apply overrides in the order given. -/
def applyAll (overrides : List Override) : PermissionValue := overrides.foldl apply p

def has : Bool := p.raw &&& v == v

def hasUserPermission (permission : UserPermission) : Bool := p.has permission.toU64

def hasChannelPermission : Bool := p.has permission.toU64

def throwIfLackingChannelPermission : Result Unit :=
  if p.hasChannelPermission permission then .ok ()
  else .error (.missingPermission permission.display)

/-- Throw if the value cannot grant the allows added and the denies removed on
the way from the current override to the next one. -/
def throwPermissionOverride (current : Option Override) (next : Override) : Result Unit :=
  match current with
  | some current =>
    if !p.has (~~~current.allow &&& next.allow) || !p.has (current.deny &&& ~~~next.deny) then
      .error .cannotGiveMissingPermissions
    else .ok ()
  | none => if !p.has next.allow then .error .cannotGiveMissingPermissions else .ok ()

def bit (b : Bit) : Bool := hasBit p.raw b

variable {p}

@[simp] theorem allow_bit : (p.allow v).bit b = (p.bit b || hasBit v b) :=
  hasBit_or p.raw v b

@[simp] theorem revoke_bit : (p.revoke v).bit b = (p.bit b && !hasBit v b) := by
  simp [revoke, bit]

@[simp] theorem restrict_bit : (p.restrict v).bit b = (p.bit b && hasBit v b) :=
  hasBit_and p.raw v b

@[simp] theorem revokeAll_bit (b : Bit) : p.revokeAll.bit b = false := hasBit_zero b

/-- At one bit, applying an override places its layer over the value. -/
theorem apply_bit (o : Override) (b : Bit) : (p.apply o).bit b = (o.layer b).getD (p.bit b) := by
  simp only [apply, revoke_bit, allow_bit, Override.layer]
  cases hasBit o.deny b <;> cases hasBit o.allow b <;> simp

/-- At one bit, applying overrides in order resolves the stack of their
layers. -/
theorem applyAll_bit (overrides : List Override) (b : Bit) :
    (p.applyAll overrides).bit b =
      LayerStack.resolve (p.bit b) (overrides.map fun o => o.layer b) := by
  induction overrides generalizing p with
  | nil => rfl
  | cons o overrides ih =>
    change ((p.apply o).applyAll overrides).bit b = _
    rw [ih, apply_bit]
    rfl

/-- `has` is containment of bits. -/
theorem has_iff {v : UInt64} : p.has v ↔ ∀ b, hasBit v b → p.bit b := by
  simp only [has, beq_iff_eq]
  constructor
  · intro same b set
    rw [← same, hasBit_and, Bool.and_eq_true] at set
    exact set.1
  · intro contained
    apply word_ext
    intro b
    rw [hasBit_and]
    cases set : hasBit v b with
    | false => simp
    | true =>
      have granted : hasBit p.raw b = true := contained b set
      rw [granted, Bool.and_true]

/-- An accepted override neither grants a bit that the value lacks nor lifts its
denial. -/
theorem layer_below_of_throwPermissionOverride {current next : Override}
    (accepted : p.throwPermissionOverride (some current) next = .ok ()) {b : Bit}
    (lacking : p.bit b = false) : LayerStack.Below (next.layer b) (current.layer b) := by
  have checks : p.has (~~~current.allow &&& next.allow) = true ∧
      p.has (current.deny &&& ~~~next.deny) = true := by
    simp only [throwPermissionOverride, Bool.or_eq_true, Bool.not_eq_true'] at accepted
    split at accepted
    · cases accepted
    · next passed => simpa [not_or] using passed
  have allowed : hasBit next.allow b = true → hasBit current.allow b = true := by
    intro grants
    by_contra absent
    have held := has_iff.mp checks.1 b (by simpa [grants] using absent)
    rw [lacking] at held
    cases held
  have denied : hasBit current.deny b = true → hasBit next.deny b = true := by
    intro denies
    by_contra absent
    have held := has_iff.mp checks.2 b (by simpa [denies] using absent)
    rw [lacking] at held
    cases held
  intro v v' le
  unfold Override.layer
  cases nextDeny : hasBit next.deny b with
  | true => exact Bool.false_le _
  | false =>
    have notDenied : hasBit current.deny b = false := by
      by_contra denies
      rw [denied (by simpa using denies)] at nextDeny
      cases nextDeny
    cases nextAllow : hasBit next.allow b with
    | true => simp [notDenied, allowed nextAllow]
    | false =>
      cases hasBit current.allow b with
      | true => simp [notDenied, Bool.le_true]
      | false => simpa [notDenied] using le

/-- Against no previous override, every allowed bit has to be held. -/
theorem allow_of_throwPermissionOverride {next : Override}
    (accepted : p.throwPermissionOverride none next = .ok ()) {b : Bit}
    (grants : hasBit next.allow b) : p.bit b := by
  refine has_iff.mp ?_ b grants
  by_contra lacking
  simp [throwPermissionOverride, lacking] at accepted

theorem throwIfLackingChannelPermission_ok {permission : ChannelPermission}
    (accepted : p.throwIfLackingChannelPermission permission = .ok ()) :
    p.hasChannelPermission permission := by
  unfold throwIfLackingChannelPermission at accepted
  split at accepted
  · assumption
  · cases accepted

/-- Asking for a permission of a single bit reads that bit. -/
theorem has_shift (n : Bit) (v : UInt64) (single : ∀ b, hasBit v b = decide (b = n)) :
    p.has v = p.bit n := by
  rw [Bool.eq_iff_iff, has_iff]
  constructor
  · intro contained
    exact contained n (by simp [single])
  · intro set b hb
    rw [single, decide_eq_true_eq] at hb
    exact hb ▸ set

end PermissionValue

def viewBit : Bit := 20
def speakBit : Bit := 31
def videoBit : Bit := 32
def listenBit : Bit := 36

variable (b : Bit)

theorem hasBit_viewChannel :
    hasBit viewChannel.toU64 b = decide (b = viewBit) := by
  revert b; decide

theorem hasBit_speak : hasBit speak.toU64 b = decide (b = speakBit) := by
  revert b; decide

theorem hasBit_video : hasBit video.toU64 b = decide (b = videoBit) := by
  revert b; decide

theorem hasBit_listen : hasBit listen.toU64 b = decide (b = listenBit) := by
  revert b; decide

/-- A timeout leaves viewing and reading the history, and nothing else. -/
theorem hasBit_allowInTimeout :
    hasBit ALLOW_IN_TIMEOUT b = (decide (b = viewBit) || decide (b = 21)) := by
  revert b; decide

namespace PermissionValue

variable (p : PermissionValue)

theorem hasChannelPermission_view : p.hasChannelPermission .viewChannel = p.bit viewBit :=
  has_shift viewBit _ hasBit_viewChannel

theorem hasChannelPermission_speak : p.hasChannelPermission .speak = p.bit speakBit :=
  has_shift speakBit _ hasBit_speak

theorem hasChannelPermission_video : p.hasChannelPermission .video = p.bit videoBit :=
  has_shift videoBit _ hasBit_video

theorem hasChannelPermission_listen : p.hasChannelPermission .listen = p.bit listenBit :=
  has_shift listenBit _ hasBit_listen

end PermissionValue

end Company
