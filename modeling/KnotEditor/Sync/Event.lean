import KnotEditor.Predicates

/-! The signed operations of one Knot space and the plaintext events sealed inside them. -/

namespace KnotEditor

structure VaultDocument where
  id : String
  title : String
  body : ByteArray
  mediaType : String
  deriving DecidableEq

structure KnotFileRevisionV1 where
  documentId : String
  title : String
  mediaType : String
  body : ByteArray
  deriving DecidableEq

def KnotFileRevisionV1.validate (revision : KnotFileRevisionV1) : Except String Unit := do
  if (trim revision.documentId).isEmpty then
    .error "file revision document id must not be empty"
  if revision.documentId != trim revision.documentId then
    .error "file revision document id must not have surrounding whitespace"
  if containsNul revision.documentId then
    .error "file revision document id must not contain NUL"
  if containsNul revision.title then
    .error "file revision title must not contain NUL"
  if (trim revision.mediaType).isEmpty then
    .error "file revision media type must not be empty"
  if revision.mediaType != trim revision.mediaType then
    .error "file revision media type must not have surrounding whitespace"
  if containsNul revision.mediaType then
    .error "file revision media type must not contain NUL"

def fileRevisionAsVaultDocument (revision : KnotFileRevisionV1) : VaultDocument where
  id := revision.documentId
  title := revision.title
  body := revision.body
  mediaType := revision.mediaType

inductive KnotSyncEvent
  | put (document : VaultDocument)
  | captureFileRevision (revision : KnotFileRevisionV1)
  | delete (id : String)
  | resolve (id : String) (supersedes : List Bytes32) (document : Option VaultDocument)
  | assertRelation (predicate : KnotPredicateRefV1) (subject object : KnotRelationEndpointV1)
      (evidence qualification : Option String)
  | retractRelation (assertion : Bytes32)
  | definePredicate (slug label : String) (description subpropertyOf lowersTo : Option String)
      (supersedes : Option Bytes32) (replacedBy : Option KnotPredicateReplacementV1)
  | retainCompositionV1 (itemJson : String)
  | organizeCompositionV1 (originalAuthor : Bytes32) (itemId : String) (previous : Bytes32)
      (organizationJson : String)
  deriving DecidableEq

inductive KnotEncryptionProfile
  | personalVaultV1
  | commonsDataV1
  deriving DecidableEq

structure KnotSyncExt where
  spaceId : Bytes32
  encryption : KnotEncryptionProfile
  parents : List Bytes32
  assertedAtMs : Option UInt64
  deriving DecidableEq

/-- The header fields Knot reads, and the signed encoding whose digest names the operation. -/
structure Header where
  verifyingKey : Bytes32
  seqNum : UInt32
  backlink : Option Bytes32
  extensions : KnotSyncExt
  encoded : ByteArray
  deriving DecidableEq

structure Operation where
  hash : Bytes32
  header : Header
  body : Option ByteArray
  deriving DecidableEq

abbrev Operation.author (operation : Operation) : Bytes32 := operation.header.verifyingKey

structure StoredKnotOperation where
  operation : Operation
  logId : Nat
  deriving DecidableEq

inductive KnotSyncError
  | process (reason : String)
  | causal (reason : String)
  | groupCrypto (reason : String)
  | payload (reason : String)
  | wrongEncryptionProfile
  | invalidResolution (reason : String)
  | invalidRelation (reason : String)
  | invalidPredicate (reason : String)
  | invalidFileRevision (reason : String)
  deriving DecidableEq

def KnotSyncError.text : KnotSyncError → String
  | process reason => reason
  | causal reason => reason
  | groupCrypto reason => reason
  | payload reason => s!"sync payload: {reason}"
  | wrongEncryptionProfile =>
    "sync cipher does not match the space's signed encryption profile"
  | invalidResolution reason => s!"invalid conflict resolution: {reason}"
  | invalidRelation reason => s!"invalid relation assertion: {reason}"
  | invalidPredicate reason => s!"invalid predicate definition: {reason}"
  | invalidFileRevision reason => s!"invalid file revision capture: {reason}"

end KnotEditor
