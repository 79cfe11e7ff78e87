import KnotEditor.Sync.Authoring

/-! The sealed local records of a replica: its projection checkpoint, its communal keyring and the
clean-storage marker. The vault, the keyring and the serializers come in through `CheckpointHost`. -/

namespace KnotEditor

structure KnotAuthorHead where
  author : Bytes32
  logId : Nat
  seqNum : UInt32
  operation : Bytes32
  deriving DecidableEq

structure KnotCheckpointSnapshot where
  documents : List VaultDocument
  conflicts : List KnotDocumentConflict
  automaticMerges : List KnotAutomaticTextMerge
  documentHeads : List (String × Bytes32)
  relations : List KnotRelationAssertionV1
  rejectedRelations : List KnotRejectedRelationV1
  unverifiedRelations : List KnotUnverifiedRelationV1
  predicates : List KnotPredicateDefinitionV1
  rejectedPredicates : List KnotRejectedPredicateV1
  deriving DecidableEq

structure KnotProjectionCheckpoint where
  version : Nat
  spaceId : Bytes32
  heads : List KnotAuthorHead
  documentDigests : List (String × Bytes32)
  conflictIds : List String
  pending : List (Bytes32 × List Bytes32)
  snapshot : Option KnotCheckpointSnapshot
  deriving DecidableEq

inductive RecordKind
  | checkpoint
  | communalKeyring
  | storageMarker
  deriving DecidableEq

structure LocalEnvelope where
  format : String
  version : Nat
  spaceId : Bytes32
  profile : KnotEncryptionProfile
  kind : RecordKind
  ciphertext : ByteArray
  deriving DecidableEq

/-- What checkpoints add to the sync host. A keyring's view is its serialized state, with the
secrets as a set. -/
structure CheckpointHost extends SyncHost where
  Vault : Type
  isLocked : Vault → Bool
  sealLocalStorage : Vault → ByteArray → ByteArray → Except String ByteArray
  unsealLocalStorage : Vault → ByteArray → ByteArray → Except String ByteArray
  envelopeToJson : LocalEnvelope → Except String ByteArray
  envelopeFromJson : ByteArray → Option LocalEnvelope
  Keyring : Type
  KeyringView : Type
  sameView : DecidableEq KeyringView
  dataKeyring : Keyring → DataKeyring
  keyringView : Keyring → Except String KeyringView
  keyringToBytes : Keyring → Except String ByteArray
  keyringFromBytes : ByteArray → Except String Keyring
  checkpointToJson : KnotProjectionCheckpoint → Except String ByteArray
  checkpointFromJson : ByteArray → Except String KnotProjectionCheckpoint
  documentToJson : VaultDocument → Except String ByteArray
  blake3 : ByteArray → Bytes32
  validateOperation : Operation → Except String Unit
  recordIndex : StoredKnotOperation → Except String Unit
  wholeIndex : List StoredKnotOperation → Except String Unit

attribute [instance] CheckpointHost.sameView

inductive CheckpointError
  | sync (error : KnotSyncError)
  | store (reason : String)
  | missingCheckpoint
  | checkpointMigrationRequired
  | checkpointStorage (reason : String)
  | staleRetentionProposal
  | blockedRetentionProposal
  deriving DecidableEq

structure LocalStore where
  sync : KnotSyncStore
  backend : Std.ExtTreeMap String ByteArray
  storageFresh : Bool

structure LocalFaults where
  get : String → Option String := fun _ => none
  load : Option String := none
  apply : Option String := none

def checkpointKey (spaceId : Bytes32) : String := "knot-sync/checkpoint/" ++ hex32 spaceId

def communalKeyringKey (spaceId : Bytes32) : String :=
  "knot-sync/commons-keyring/" ++ hex32 spaceId

def markerKey (spaceId : Bytes32) : String := "knot-sync/sealed-storage/" ++ hex32 spaceId

def marker : ByteArray := "mere.knot.clean-checkpoint-database.v1".toUTF8

def envelopeFormat : String := "mere.knot.sealed-local-record"

def localAad (spaceId : Bytes32) (profile : KnotEncryptionProfile) (kind : RecordKind) :
    ByteArray :=
  let profileTag : UInt8 := match profile with
    | .personalVaultV1 => 1
    | .commonsDataV1 => 2
  let kindTag : UInt8 := match kind with
    | .checkpoint => 1
    | .communalKeyring => 2
    | .storageMarker => 3
  envelopeFormat.toUTF8 ++ ⟨#[1, 0]⟩ ++ ⟨spaceId.bytes.toArray⟩ ++ ⟨#[profileTag, kindTag]⟩

def historyError (message : String) : CheckpointError :=
  .checkpointStorage
    s!"retained signed history {message}; recover its indexes before checkpointing"

namespace LocalStore

variable (host : CheckpointHost) (store : LocalStore) (faults : LocalFaults)

def spaceId : Bytes32 := store.sync.policy.spaceId

def profile : KnotEncryptionProfile := store.sync.policy.encryption

def get (key : String) : Except CheckpointError (Option ByteArray) :=
  match faults.get key with
  | some reason => .error (.store reason)
  | none => .ok store.backend[key]?

def apply (writes : List (String × ByteArray)) : Except CheckpointError LocalStore :=
  match faults.apply with
  | some reason => .error (.store reason)
  | none => .ok { store with
      backend := writes.foldl (fun backend write => backend.insert write.1 write.2) store.backend }

def loadOperations : Except CheckpointError (List StoredKnotOperation) :=
  match faults.load with
  | some reason => .error (.store reason)
  | none => .ok store.sync.records

def sealLocal (vault : host.Vault) (kind : RecordKind) (plaintext : ByteArray) :
    Except CheckpointError ByteArray := do
  let ciphertext ← (host.sealLocalStorage vault (localAad store.spaceId store.profile kind)
    plaintext).mapError CheckpointError.checkpointStorage
  (host.envelopeToJson {
    format := envelopeFormat
    version := 1
    spaceId := store.spaceId
    profile := store.profile
    kind
    ciphertext }).mapError .checkpointStorage

def openLocal (vault : host.Vault) (kind : RecordKind) (bytes : ByteArray) :
    Except CheckpointError ByteArray :=
  match host.envelopeFromJson bytes with
  | none => .error .checkpointMigrationRequired
  | some envelope =>
    if envelope.format ≠ envelopeFormat ∨ envelope.version ≠ 1 then
      .error (.checkpointStorage "unsupported local storage envelope")
    else if envelope.spaceId ≠ store.spaceId ∨ envelope.profile ≠ store.profile ∨
        envelope.kind ≠ kind then
      .error (.checkpointStorage
        "local storage envelope context does not match this record")
    else
      (host.unsealLocalStorage vault (localAad store.spaceId store.profile kind)
        envelope.ciphertext).mapError .checkpointStorage

def storageMarkerWrite (vault : host.Vault) : Except CheckpointError (String × ByteArray) := do
  let sealedMarker ← store.sealLocal host vault .storageMarker marker
  .ok (markerKey store.spaceId, sealedMarker)

def requireCleanStorage (vault : host.Vault) : Except CheckpointError Unit := do
  if host.isLocked vault then
    .error (.checkpointStorage "local storage vault is locked")
  match ← store.get faults (markerKey store.spaceId) with
  | some bytes => do
      let found ← store.openLocal host vault .storageMarker bytes
      if found ≠ marker then
        .error (.checkpointStorage "invalid clean storage marker")
      else .ok ()
  | none => if store.storageFresh then .ok () else .error .checkpointMigrationRequired

def openKeyring (vault : host.Vault) (bytes : ByteArray) : Except CheckpointError host.Keyring := do
  let plaintext ← store.openLocal host vault .communalKeyring bytes
  (host.keyringFromBytes plaintext).mapError fun reason => .sync (.groupCrypto reason)

def keyringsMatch (one two : host.Keyring) : Except CheckpointError Bool := do
  let left ← (host.keyringView one).mapError CheckpointError.checkpointStorage
  let right ← (host.keyringView two).mapError CheckpointError.checkpointStorage
  .ok (decide (left = right))

def validateKeyringMatches (vault : host.Vault) (supplied : host.Keyring) :
    Except CheckpointError Unit := do
  store.requireCleanStorage host faults vault
  match ← store.get faults (communalKeyringKey store.spaceId) with
  | none => .ok ()
  | some bytes => do
      let persisted ← store.openKeyring host vault bytes
      if !(← keyringsMatch host supplied persisted) then
        .error (.checkpointStorage ("membership keys differ from persisted retention state; " ++
          "use the explicit membership handoff"))
      else .ok ()

def loadCheckpoint (vault : host.Vault) :
    Except CheckpointError (Option KnotProjectionCheckpoint) := do
  store.requireCleanStorage host faults vault
  match ← store.get faults (checkpointKey store.spaceId) with
  | none => .ok none
  | some bytes => do
      let plaintext ← store.openLocal host vault .checkpoint bytes
      let checkpoint ← (host.checkpointFromJson plaintext).mapError fun reason =>
        CheckpointError.sync (.payload reason)
      if checkpoint.version ≠ 1 ∨ checkpoint.spaceId ≠ store.spaceId then
        .error (.sync (.payload "checkpoint version or space does not match this store"))
      else .ok (some checkpoint)

def checkRecord (cipher : KnotSyncCipher) (record : StoredKnotOperation) :
    Except CheckpointError Unit := do
  let operation := record.operation
  if record.logId ≠ logId then
    .error (historyError "uses an unexpected log identity")
  (host.validateOperation operation).mapError fun reason =>
    CheckpointError.sync (.payload s!"invalid retained operation: {reason}")
  if operation.hash ≠ host.headerHash operation.header then
    .error (historyError "operation id does not match its signed header")
  if operation.header.extensions.spaceId ≠ store.spaceId ∨
      operation.header.extensions.encryption ≠ store.profile then
    .error (.sync .wrongEncryptionProfile)
  (host.validateCausalMetadata operation operation.header.extensions.parents).mapError fun reason =>
    CheckpointError.sync (.causal reason)
  let _ ← (decodeEvent host.toSyncHost cipher operation).mapError CheckpointError.sync
  (host.recordIndex record).mapError historyError

def checkpointRecords (cipher : KnotSyncCipher) :
    Except CheckpointError (List StoredKnotOperation) := do
  (store.sync.requireCipher cipher).mapError CheckpointError.sync
  let records ← store.loadOperations faults
  records.forM (store.checkRecord host cipher)
  (host.wholeIndex records).mapError historyError
  .ok records

abbrev HeadKey := Bytes32 ×ₗ Nat

instance headKey_lawfulEqOrd : Std.LawfulEqOrd HeadKey where
  eq_of_compare same := compare_eq_iff_eq.mp same

def headKey (record : StoredKnotOperation) : HeadKey :=
  toLex (record.operation.header.verifyingKey, record.logId)

def authorHead (record : StoredKnotOperation) : KnotAuthorHead where
  author := record.operation.header.verifyingKey
  logId := record.logId
  seqNum := record.operation.header.seqNum
  operation := record.operation.hash

def insertHead (heads : Std.ExtTreeMap HeadKey KnotAuthorHead) (record : StoredKnotOperation) :
    Std.ExtTreeMap HeadKey KnotAuthorHead :=
  match heads[headKey record]? with
  | none => heads.insert (headKey record) (authorHead record)
  | some current =>
    if current.seqNum < record.operation.header.seqNum then
      heads.insert (headKey record) (authorHead record)
    else heads

def authorHeads (records : List StoredKnotOperation) : List KnotAuthorHead :=
  (records.foldl insertHead ∅).values

def documentDigest (document : VaultDocument) : Except CheckpointError (String × Bytes32) := do
  let bytes ← (host.documentToJson document).mapError fun reason =>
    CheckpointError.sync (.payload reason)
  .ok (document.id, host.blake3 bytes)

def checkpointSnapshot (projection : KnotDocumentProjection) : KnotCheckpointSnapshot where
  documents := projection.documents
  conflicts := projection.conflicts
  automaticMerges := projection.automaticMerges
  documentHeads := projection.documentHeads.toList
  relations := projection.relations
  rejectedRelations := projection.rejectedRelations
  unverifiedRelations := projection.unverifiedRelations
  predicates := projection.predicates.definitions
  rejectedPredicates := projection.predicates.rejected

def buildCheckpointWithCipher (cipher : KnotSyncCipher) :
    Except CheckpointError KnotProjectionCheckpoint := do
  let records ← store.checkpointRecords host faults cipher
  let projection ← (store.sync.projectionWithCipherAndStrictness host.toSyncHost cipher
    .strict).mapError CheckpointError.sync
  let documentDigests ← projection.documents.mapM (documentDigest host)
  .ok {
    version := 1
    spaceId := store.spaceId
    heads := authorHeads records
    documentDigests
    conflictIds := projection.conflicts.map KnotDocumentConflict.id
    pending := projection.pending.map fun pending => (pending.operation, pending.missing)
    snapshot := some (checkpointSnapshot projection) }

def sealKeyring (vault : host.Vault) (keys : host.Keyring) :
    Except CheckpointError (String × ByteArray) := do
  let bytes ← (host.keyringToBytes keys).mapError fun reason =>
    CheckpointError.sync (.groupCrypto reason)
  let sealedKeyring ← store.sealLocal host vault .communalKeyring bytes
  .ok (communalKeyringKey store.spaceId, sealedKeyring)

def saveCommunalCheckpoint (keys : host.Keyring) (vault : host.Vault) :
    Except CheckpointError (KnotProjectionCheckpoint × LocalStore) := do
  let cipher := KnotSyncCipher.commonsData (host.dataKeyring keys)
  (store.sync.requireCipher cipher).mapError CheckpointError.sync
  let _ ← store.loadCheckpoint host faults vault
  let checkpoint ← store.buildCheckpointWithCipher host faults cipher
  let plaintext ← (host.checkpointToJson checkpoint).mapError fun reason =>
    CheckpointError.sync (.payload reason)
  let sealedCheckpoint ← store.sealLocal host vault .checkpoint plaintext
  let markerWrite ← store.storageMarkerWrite host vault
  store.validateKeyringMatches host faults vault keys
  let keyringWrite ← store.sealKeyring host vault keys
  let saved ← store.apply faults
    [(checkpointKey store.spaceId, sealedCheckpoint), markerWrite, keyringWrite]
  .ok (checkpoint, saved)

def persistCommunalKeyring (keys : host.Keyring) (vault : host.Vault) :
    Except CheckpointError LocalStore := do
  if store.profile ≠ .commonsDataV1 then
    .error (.sync .wrongEncryptionProfile)
  store.requireCleanStorage host faults vault
  match ← store.get faults (communalKeyringKey store.spaceId) with
  | none => .ok ()
  | some bytes => (store.openKeyring host vault bytes).map fun _ => ()
  let keyringWrite ← store.sealKeyring host vault keys
  let markerWrite ← store.storageMarkerWrite host vault
  store.apply faults [markerWrite, keyringWrite]

def accept (operation : Operation) : Except CheckpointError LocalStore := do
  let sync ← (store.sync.acceptUnderGate host.toSyncHost operation).mapError CheckpointError.sync
  .ok { store with sync := sync }

end LocalStore

end KnotEditor
