import KnotEditor.Composition
import KnotEditor.DjotMerge

/-! The store's projections: what a reader holding one cipher sees of the retained operations.
Stickleback, p2panda, the serializers and the seals come in through `SyncHost`. -/

namespace KnotEditor

structure CausalEntry where
  operation : Operation
  logId : Nat
  parents : List Bytes32

structure PendingCausalOperation where
  operation : Bytes32
  missing : List Bytes32
  deriving DecidableEq

/-- The causally closed operations, as positions in the records, and the ones still waiting. -/
structure CausalProjection where
  order : List Nat
  pending : List PendingCausalOperation

structure GroupCiphertext where
  epoch : Bytes32
  sealed : ByteArray

structure SyncVault where
  sealSyncPayload : ByteArray → ByteArray → Except String ByteArray
  unsealSyncPayload : ByteArray → ByteArray → Except String ByteArray

structure DataKeyring where
  sealRandom : ByteArray → Except String GroupCiphertext
  openEnvelope : GroupCiphertext → Except String ByteArray

structure SyncHost where
  merge : MergeHost
  composition : CompositionHost
  causalIndex : List CausalEntry → CausalIndex
  causalProjection : List CausalEntry → Except String CausalProjection
  observedFrontier : List CausalEntry → Except String (List Bytes32)
  authorHead : List CausalEntry → Bytes32 → Nat → Except String (UInt32 × Option Bytes32)
  validateCausalMetadata : Operation → List Bytes32 → Except String Unit
  storeOperation : List StoredKnotOperation → Operation → Nat →
    Except String (List StoredKnotOperation)
  eventToJson : KnotSyncEvent → Except String ByteArray
  eventFromJson : ByteArray → Except String KnotSyncEvent
  encodeEnvelope : GroupCiphertext → Except String ByteArray
  decodeEnvelope : ByteArray → Except String GroupCiphertext
  verifyingKey : Bytes32 → Bytes32
  buildHeader : Bytes32 → ByteArray → UInt32 → Option Bytes32 → KnotSyncExt → Header
  headerHash : Header → Bytes32
  clock : Option UInt64

inductive KnotSyncCipher
  | personal (vault : SyncVault)
  | commonsData (keys : DataKeyring)

inductive KnotProjectionStrictness
  | tolerant
  | strict
  deriving DecidableEq

namespace KnotSyncCipher

def profile : KnotSyncCipher → KnotEncryptionProfile
  | personal _ => .personalVaultV1
  | commonsData _ => .commonsDataV1

def defaultStrictness : KnotSyncCipher → KnotProjectionStrictness
  | personal _ => .tolerant
  | commonsData _ => .strict

end KnotSyncCipher

structure KnotSyncPolicy where
  spaceId : Bytes32
  writers : List Bytes32
  encryption : KnotEncryptionProfile

/-- A replica: its retained operations, in the order `load_operations` lists them. -/
structure KnotSyncStore where
  records : List StoredKnotOperation
  policy : KnotSyncPolicy

def causalEntries (records : List StoredKnotOperation) : List CausalEntry :=
  records.map fun record => {
    operation := record.operation
    logId := record.logId
    parents := record.operation.header.extensions.parents
  }

def operationsAt (records : List StoredKnotOperation) (order : List Nat) : List Operation :=
  order.filterMap fun index => (records[index]?).map StoredKnotOperation.operation

def littleEndian32 (value : UInt32) : List UInt8 :=
  [value.toUInt8, (value >>> 8).toUInt8, (value >>> 16).toUInt8, (value >>> 24).toUInt8]

def operationAad (spaceId author : Bytes32) (seqNum : UInt32) : ByteArray :=
  "mere.knot.sync-operation.v1".toUTF8 ++
    ⟨(spaceId.bytes ++ author.bytes ++ littleEndian32 seqNum).toArray⟩

def sealEvent (host : SyncHost) (cipher : KnotSyncCipher) (aad plaintext : ByteArray) :
    Except KnotSyncError ByteArray :=
  match cipher with
  | .personal vault => (vault.sealSyncPayload aad plaintext).mapError .payload
  | .commonsData keys => do
      let envelope ← (keys.sealRandom plaintext).mapError .groupCrypto
      (host.encodeEnvelope envelope).mapError .payload

def decodeEvent (host : SyncHost) (cipher : KnotSyncCipher) (operation : Operation) :
    Except KnotSyncError KnotSyncEvent := do
  let some body := operation.body | .error (.payload "operation body is absent")
  let aad := operationAad operation.header.extensions.spaceId operation.header.verifyingKey
    operation.header.seqNum
  let plaintext ← match cipher with
    | .personal vault => (vault.unsealSyncPayload aad body).mapError KnotSyncError.payload
    | .commonsData keys => do
        let envelope ← (host.decodeEnvelope body).mapError KnotSyncError.payload
        (keys.openEnvelope envelope).mapError KnotSyncError.groupCrypto
  (host.eventFromJson plaintext).mapError .payload

def readableEvents (host : SyncHost) (cipher : KnotSyncCipher) (operation : Operation) :
    Option KnotSyncEvent :=
  (decodeEvent host cipher operation).toOption

def undecodableRecord (operation : Operation) (error : KnotSyncError) : KnotRejectedRelationV1 where
  operation := operation.hash
  author := operation.author
  reason := s!"closed event could not be decoded: {error.text}"

def decodeClosed (host : SyncHost) (cipher : KnotSyncCipher)
    (strictness : KnotProjectionStrictness) :
    List Operation → Except KnotSyncError (List KnotRejectedRelationV1)
  | [] => .ok []
  | operation :: rest =>
    match decodeEvent host cipher operation with
    | .ok _ => decodeClosed host cipher strictness rest
    | .error error =>
      match strictness with
      | .strict => .error error
      | .tolerant => do
          let undecodable ← decodeClosed host cipher strictness rest
          return undecodableRecord operation error :: undecodable

structure KnotDocumentConflict where
  id : String
  versions : List KnotDocumentVersion
  deriving DecidableEq

abbrev DocumentHeads := Std.ExtTreeMap String Bytes32

structure SettledDocuments where
  documents : List VaultDocument := []
  conflicts : List KnotDocumentConflict := []
  automaticMerges : List KnotAutomaticTextMerge := []
  documentHeads : DocumentHeads := ∅

def SettledDocuments.settle (settled : SettledDocuments) (host : MergeHost) (causal : CausalIndex)
    (history : List VersionRecord) (id : String) (versions : WriterVersions) :
    Except KnotSyncError SettledDocuments :=
  match versions.values with
  | [version] => .ok { settled with
      documents := settled.documents ++ version.document.toList
      documentHeads := settled.documentHeads.insert id version.operation }
  | held =>
    match automaticTextMerge host causal history id versions with
    | some automatic => do
        let head ← automaticTextMergeHead host automatic.base automatic.supersedes
          automatic.document
        return { settled with
          documents := settled.documents ++ [automatic.document]
          automaticMerges := settled.automaticMerges ++ [automatic]
          documentHeads := settled.documentHeads.insert id head }
    | none => .ok { settled with conflicts := settled.conflicts ++ [{ id, versions := held }] }

def settleDocuments (host : MergeHost) (causal : CausalIndex) (replay : DocumentReplay) :
    Except KnotSyncError SettledDocuments :=
  replay.current.toList.foldlM (fun settled entry =>
    settled.settle host causal replay.versionHistory entry.1 entry.2) {}

structure KnotDocumentProjection where
  documents : List VaultDocument
  conflicts : List KnotDocumentConflict
  automaticMerges : List KnotAutomaticTextMerge
  pending : List PendingCausalOperation
  documentHeads : DocumentHeads
  relations : List KnotRelationAssertionV1
  rejectedRelations : List KnotRejectedRelationV1
  unverifiedRelations : List KnotUnverifiedRelationV1
  predicates : KnotPredicateCatalogV1

def projectEvents (host : MergeHost) (order : List Operation)
    (events : Operation → Option KnotSyncEvent) (causal : CausalIndex) (scope : Bytes32)
    (pending : List PendingCausalOperation) (undecodable : List KnotRejectedRelationV1) :
    Except KnotSyncError KnotDocumentProjection := do
  let relationFold := foldRelations order events causal scope
  let replay ← foldDocuments order events causal
  let settled ← settleDocuments host causal replay
  return {
    documents := settled.documents
    conflicts := settled.conflicts
    automaticMerges := settled.automaticMerges
    pending
    documentHeads := settled.documentHeads
    relations := relationFold.relations
    rejectedRelations := relationFold.rejected ++ undecodable
    unverifiedRelations := relationFold.unverified
    predicates := relationFold.catalog
  }

namespace KnotSyncStore

variable (store : KnotSyncStore) (host : SyncHost)

def entries : List CausalEntry := causalEntries store.records

def causal : CausalIndex := host.causalIndex store.entries

def requireCipher (cipher : KnotSyncCipher) : Except KnotSyncError Unit :=
  if cipher.profile ≠ store.policy.encryption then .error .wrongEncryptionProfile else .ok ()

def closedOperations : Except KnotSyncError (List Operation × List PendingCausalOperation) := do
  let projection ← (host.causalProjection store.entries).mapError .causal
  return (operationsAt store.records projection.order, projection.pending)

def projectionWithCipherAndStrictness (cipher : KnotSyncCipher)
    (strictness : KnotProjectionStrictness) : Except KnotSyncError KnotDocumentProjection := do
  store.requireCipher cipher
  let (order, pending) ← store.closedOperations host
  let undecodable ← decodeClosed host cipher strictness order
  projectEvents host.merge order (readableEvents host cipher) (store.causal host)
    store.policy.spaceId pending undecodable

def projectionWithCipher (cipher : KnotSyncCipher) : Except KnotSyncError KnotDocumentProjection :=
  store.projectionWithCipherAndStrictness host cipher cipher.defaultStrictness

def projection (vault : SyncVault) : Except KnotSyncError KnotDocumentProjection :=
  store.projectionWithCipher host (.personal vault)

def versionOf (documentId : String) : KnotSyncEvent → Option VaultDocument
  | .put document => if document.id = documentId then some document else none
  | .resolve id _ (some document) =>
    if id = documentId ∧ document.id = id then some document else none
  | _ => none

def documentVersionWithCipher (cipher : KnotSyncCipher) (documentId : String)
    (operationId : Bytes32) : Except KnotSyncError (Option VaultDocument) := do
  store.requireCipher cipher
  let (order, _) ← store.closedOperations host
  match order.find? fun operation => operation.hash == operationId with
  | none => return none
  | some operation => return versionOf documentId (← decodeEvent host cipher operation)

def documentVersion (vault : SyncVault) (documentId : String) (operationId : Bytes32) :
    Except KnotSyncError (Option VaultDocument) :=
  store.documentVersionWithCipher host (.personal vault) documentId operationId

end KnotSyncStore

end KnotEditor
