import KnotEditor.Sync.Projection
import Mathlib.Algebra.GroupWithZero.Nat

/-! Explicit, read-only publication of selected retained documents: the owner's catalog and the
checks a source passes before it is served. -/

namespace KnotEditor

def knotPublishService : String := "/services/knot-publish"

def knotPublishReadAction : String := "read"

abbrev Uuid := Fin (2 ^ 128)

instance uuidSpace_neZero : NeZero (2 ^ 128) := ⟨by decide⟩

instance uuid_transOrd : Std.TransOrd Uuid := inferInstance

def Uuid.text (uuid : Uuid) : String :=
  let digits := (List.range 32).map fun place => hexDigit (uuid.val / 16 ^ (31 - place) % 16)
  let part (start length : Nat) := String.ofList ((digits.drop start).take length)
  s!"{part 0 8}-{part 8 4}-{part 12 4}-{part 16 4}-{part 20 12}"

abbrev PublicationId := Uuid

def publicationPath (publication : PublicationId) : String :=
  s!"{knotPublishService}/{publication.text}"

structure KnotPublication where
  id : PublicationId
  sourceDocument : String
  deriving DecidableEq

structure RetainedAuthority (Ledger Lapse : Type) where
  lapse : Ledger → UInt64 → Option Lapse
  covers : String → String → UInt64 → Bool

inductive KnotPublishEligibility
  | eligible
  | pendingHistory
  | conflicted
  | automaticMerge
  | noCurrentHead
  | unsupportedMediaType
  deriving DecidableEq

structure KnotPublishCandidate where
  sourceDocument : String
  title : String
  mediaType : String
  head : Option Bytes32
  eligibility : KnotPublishEligibility
  deriving DecidableEq

structure KnotPublishedDocument where
  publication : PublicationId
  mediaType : String
  body : ByteArray
  operation : Bytes32
  bodyDigest : Bytes32
  deriving DecidableEq

def KnotPublishedDocument.ofDocument (host : MergeHost) (publication : PublicationId)
    (document : VaultDocument) (operation : Bytes32) : KnotPublishedDocument where
  publication
  mediaType := document.mediaType
  body := document.body
  operation
  bodyDigest := host.blake3 document.body

inductive KnotPublishRead
  | document (published : KnotPublishedDocument)
  | notAvailable
  deriving DecidableEq

inductive KnotPublishError
  | sync (error : KnotSyncError)
  deriving DecidableEq

def isPublishableMediaType (mediaType : String) : Bool :=
  mediaType == "text/vnd.knot" || mediaType == "text/djot"

structure KnotPublishCatalog where
  publications : Std.ExtTreeMap PublicationId KnotPublication := ∅

def KnotDocumentProjection.eligibility (projection : KnotDocumentProjection)
    (document : VaultDocument) : KnotPublishEligibility :=
  if !projection.pending.isEmpty then .pendingHistory
  else if projection.conflicts.any fun conflict => conflict.id == document.id then .conflicted
  else if projection.automaticMerges.any fun merge => merge.id == document.id then .automaticMerge
  else if projection.documentHeads[document.id]?.isNone then .noCurrentHead
  else if !isPublishableMediaType document.mediaType then .unsupportedMediaType
  else .eligible

namespace KnotPublishCatalog

variable (catalog : KnotPublishCatalog) (host : SyncHost) (store : KnotSyncStore)
variable (vault : SyncVault)

def publishAs (id : PublicationId) (sourceDocument : String) : KnotPublishCatalog where
  publications := catalog.publications.insert id { id, sourceDocument }

def unpublish (id : PublicationId) : KnotPublishCatalog where
  publications := catalog.publications.erase id

def candidates : Except KnotPublishError (List KnotPublishCandidate) := do
  let projection ← (store.projection host vault).mapError .sync
  return projection.documents.map fun document => {
    sourceDocument := document.id
    title := document.title
    mediaType := document.mediaType
    head := projection.documentHeads[document.id]?
    eligibility := projection.eligibility document
  }

def eligibleSource (projection : KnotDocumentProjection) (publication : KnotPublication) :
    Option (VaultDocument × Bytes32) := do
  if !projection.pending.isEmpty ||
      projection.conflicts.any (fun conflict => conflict.id == publication.sourceDocument) ||
      projection.automaticMerges.any (fun merge => merge.id == publication.sourceDocument) then
    none
  let head ← projection.documentHeads[publication.sourceDocument]?
  let document ← projection.documents.find? fun document =>
    document.id == publication.sourceDocument
  if !isPublishableMediaType document.mediaType then none
  return (document, head)

def currentEligible (publication : KnotPublication) :
    Except KnotPublishError (Option (VaultDocument × Bytes32)) := do
  let projection ← (store.projection host vault).mapError .sync
  return eligibleSource projection publication

def currentForMarkExport (id : PublicationId) :
    Except KnotPublishError (Option KnotPublishedDocument) :=
  match catalog.publications[id]? with
  | none => .ok none
  | some publication => do
      match ← currentEligible host store vault publication with
      | none => return none
      | some (document, head) =>
        return some (KnotPublishedDocument.ofDocument host.merge id document head)

variable {Ledger Lapse : Type} (authority : RetainedAuthority Ledger Lapse) (ledger : Ledger)
variable (nowMs : UInt64) (id : PublicationId)

def list : List PublicationId :=
  if (authority.lapse ledger nowMs).isSome then []
  else catalog.publications.keys.filter fun id =>
    authority.covers (publicationPath id) knotPublishReadAction nowMs

def authorizedPublication : Option KnotPublication :=
  if (authority.lapse ledger nowMs).isNone then
    (catalog.publications[id]?).filter fun _ =>
      authority.covers (publicationPath id) knotPublishReadAction nowMs
  else none

def getCurrent : Except KnotPublishError KnotPublishRead :=
  match catalog.authorizedPublication authority ledger nowMs id with
  | none => .ok .notAvailable
  | some publication => do
      match ← currentEligible host store vault publication with
      | none => return .notAvailable
      | some (document, head) =>
        return .document (KnotPublishedDocument.ofDocument host.merge id document head)

def getVersion (operation : Bytes32) : Except KnotPublishError KnotPublishRead :=
  match catalog.authorizedPublication authority ledger nowMs id with
  | none => .ok .notAvailable
  | some publication => do
      if (← currentEligible host store vault publication).isNone then
        return .notAvailable
      match ← (store.documentVersion host vault publication.sourceDocument operation).mapError
          KnotPublishError.sync with
      | none => return .notAvailable
      | some document =>
        if !isPublishableMediaType document.mediaType then
          return .notAvailable
        return .document (KnotPublishedDocument.ofDocument host.merge id document operation)

end KnotPublishCatalog

end KnotEditor

/-! The candidate codec of a publishing stream: its messages and the limits they are held to. -/

namespace KnotEditor

def hardMaxRequestBytes : Nat := 64 * 1024
def hardMaxResponseBytes : Nat := 17 * 1024 * 1024
def hardMaxDocumentBytes : Nat := 16 * 1024 * 1024
def hardMaxCatalogEntries : Nat := 4096

structure PublishWireLimits where
  maxRequestBytes : Nat := hardMaxRequestBytes
  maxResponseBytes : Nat := hardMaxResponseBytes
  maxDocumentBytes : Nat := hardMaxDocumentBytes
  maxCatalogEntries : Nat := hardMaxCatalogEntries

def PublishWireLimits.clamped (limits : PublishWireLimits) : PublishWireLimits where
  maxRequestBytes := min limits.maxRequestBytes hardMaxRequestBytes
  maxResponseBytes := min limits.maxResponseBytes hardMaxResponseBytes
  maxDocumentBytes := min limits.maxDocumentBytes hardMaxDocumentBytes
  maxCatalogEntries := min limits.maxCatalogEntries hardMaxCatalogEntries

inductive PublishRequest
  | list
  | getCurrent (publication : PublicationId)
  | getVersion (publication : PublicationId) (operation : Bytes32)

def PublishRequest.publication : PublishRequest → Option PublicationId
  | list => none
  | getCurrent publication => some publication
  | getVersion publication _ => some publication

inductive PublishResponse
  | catalog (publications : List PublicationId)
  | document (published : KnotPublishedDocument)
  | notAvailable
  deriving DecidableEq

def KnotPublishRead.response : KnotPublishRead → PublishResponse
  | document published => .document published
  | notAvailable => .notAvailable

inductive PublishWireError
  | tooLarge
  | codec
  | trailingData
  | responseLimit
  deriving DecidableEq

/-- The serializer: the bytes of a response, and the request at the head of some bytes with the
bytes that follow it. -/
structure PublishCodec where
  response : PublishResponse → Option ByteArray
  request : ByteArray → Option (PublishRequest × ByteArray)

section Wire

variable (codec : PublishCodec) (limits : PublishWireLimits)

def decodeRequest (bytes : ByteArray) : Except PublishWireError PublishRequest :=
  if bytes.size > limits.clamped.maxRequestBytes then .error .tooLarge
  else
    match codec.request bytes with
    | none => .error .codec
    | some (request, remaining) =>
      if remaining.size = 0 then .ok request else .error .trailingData

def encode (response : PublishResponse) (maxBytes : Nat) : Except PublishWireError ByteArray :=
  match codec.response response with
  | none => .error .codec
  | some bytes => if bytes.size > maxBytes then .error .tooLarge else .ok bytes

def encodeResponse (response : PublishResponse) : Except PublishWireError ByteArray :=
  match response with
  | .catalog publications =>
    if publications.length > limits.clamped.maxCatalogEntries then .error .responseLimit
    else encode codec response limits.clamped.maxResponseBytes
  | .document published =>
    if published.body.size > limits.clamped.maxDocumentBytes then .error .responseLimit
    else encode codec response limits.clamped.maxResponseBytes
  | .notAvailable => encode codec response limits.clamped.maxResponseBytes

end Wire

end KnotEditor
