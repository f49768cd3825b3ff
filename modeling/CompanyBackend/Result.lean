/-!
# Errors

The error types that the modelled functions return. The location that the source
attaches to an error is not modelled. A Rust panic is kept apart from an error:
callers handle errors, never panics.
-/

namespace Company

inductive Error where
  | unknownUser
  | unknownChannel
  | unknownAttachment
  | unknownServer
  | unknownNode
  | invalidRole
  | cannotTimeoutYourself
  | isElevated
  | isBot
  | missingPermission (permission : String)
  | missingUserPermission (permission : String)
  | notElevated
  | notPrivileged
  | cannotGiveMissingPermissions
  | notOwner
  | databaseError (operation collection : String)
  | internalError
  | invalidOperation
  | invalidProperty
  | notFound
  | noEffect
  | payloadTooLarge
  | emptyMessage
  | isNotBot
  | invalidFlagValue
  | duplicateNonce
  | tooManyReplies (max : Nat)
  | tooManyAttachments (max : Nat)
  | tooManyEmbeds (max : Nat)
  | failedValidation (error : String)
  | liveKitUnavailable
  | notAVoiceChannel
  | notConnected
  | alreadyConnected
  | cannotJoinCall
  | viewerLimitReached (max : Nat) (message : String)
  | alreadyFriends
  | alreadySentRequest
  | blocked
  | blockedByOther
  | tooManyPendingFriendRequests (max : Nat)
  | notFriends
  | cannotRemoveYourself
  | groupTooLarge (max : Nat)
  | alreadyInGroup
  | notInGroup
  | tooManyServers (max : Nat) (message : String)
  | botIsPrivate
  | aiCompanionServerLimit (message : String)
  | banned
  | alreadyInServer
  | bitrateExceedsTier (max : UInt32) (message : String)
  | tooManyRoles (max : Nat)
  | fileTooSmall
  | fileTooLarge (max : Nat)
  | fileTypeNotAllowed
  | invalidUsername
  | usernameTaken
  | discriminatorChangeRatelimited
  deriving DecidableEq, Repr

abbrev Result (α : Type) := Except Error α

structure Panic where
  message : String
  deriving DecidableEq, Repr

end Company
