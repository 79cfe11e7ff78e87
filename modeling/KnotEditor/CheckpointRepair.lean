import KnotEditor.CheckpointMigration
import KnotEditor.Sync.Checkpoint

/-! Opening a replica's operation store under released custody. A store whose protected records are
not all sealed is rebuilt from its retained history into a fresh file. -/

namespace KnotEditor

/-- What repair adds to the checkpoint host: the file's hash, and the logs its entries hold. -/
structure RepairHost extends CheckpointHost where
  migration : MigrationHost
  retained : MigrationEntries → Except String (List StoredKnotOperation)

inductive RepairCipher (host : RepairHost)
  | personal (vault : SyncVault)
  | commonsData (keys : host.Keyring)

inductive RepairError
  | sync (error : CheckpointError)
  | checkpointReplacementDurability (reason : String)
  deriving DecidableEq

structure KnotCheckpointRepairReceipt where
  rewritten : Bool
  previousCheckpoint : Option Bytes32
  checkpoint : Option Bytes32
  preservedKeys : Nat

structure RepairFaults extends MigrationFaults where
  lookup : Option String := none
  create : Option String := none
  /-- What came up at the path between the lookup and the creation. -/
  appeared : Option MigrationEntries := none
  fresh : LocalFaults := {}
  memory : Option String := none

structure RepairedStore where
  store : LocalStore
  receipt : KnotCheckpointRepairReceipt

def CheckpointError.text : CheckpointError → String
  | .sync error => error.text
  | .store reason => reason
  | .missingCheckpoint => "Knot sync has no durable projection checkpoint"
  | .checkpointMigrationRequired =>
    "Knot checkpoint storage requires authorized closed-store repair before use"
  | .checkpointStorage reason => s!"Knot local storage: {reason}"
  | .staleRetentionProposal => "reviewed Knot epoch proposal is stale"
  | .blockedRetentionProposal => "Knot epoch proposal is blocked"

def MigrationError.text : MigrationError → String
  | .rejected message => s!"checkpoint storage migration refused: {message}"
  | .preparation message => s!"checkpoint storage migration preparation failed: {message}"
  | .store error => error
  | .io step source committed =>
    s!"checkpoint storage migration failed during {step} " ++
      s!"(replacement committed: {committed}): {source}"
  | .verification => "checkpoint storage migration staged data did not match prepared data"

def KnotCheckpointSnapshot.default : KnotCheckpointSnapshot where
  documents := []
  conflicts := []
  automaticMerges := []
  documentHeads := []
  relations := []
  rejectedRelations := []
  unverifiedRelations := []
  predicates := []
  rejectedPredicates := []

def KnotProjectionCheckpoint.hasMaterial (checkpoint : KnotProjectionCheckpoint) : Bool :=
  !checkpoint.heads.isEmpty || !checkpoint.documentDigests.isEmpty ||
    !checkpoint.conflictIds.isEmpty || !checkpoint.pending.isEmpty ||
    checkpoint.snapshot.any fun snapshot => snapshot != .default

def RepairCipher.toSync {host : RepairHost} : RepairCipher host → KnotSyncCipher
  | .personal vault => .personal vault
  | .commonsData keys => .commonsData (host.dataKeyring keys)

def RepairCipher.profile {host : RepairHost} (cipher : RepairCipher host) : KnotEncryptionProfile :=
  cipher.toSync.profile

def repairScope (spaceId : Bytes32) : MigrationScope where
  managedPrefixes :=
    ["knot-sync/checkpoint/", "knot-sync/commons-keyring/", "knot-sync/sealed-storage/"]
  managedKeys := [checkpointKey spaceId, communalKeyringKey spaceId, markerKey spaceId]

namespace CheckpointRepair

variable (host : RepairHost) (spaceId : Bytes32) (writers : List Bytes32)
  (cipher : RepairCipher host) (vault : host.Vault)

def checkpointDigest (checkpoint : KnotProjectionCheckpoint) : Except CheckpointError Bytes32 := do
  let bytes ← (host.checkpointToJson checkpoint).mapError fun reason =>
    CheckpointError.sync (.payload reason)
  .ok (host.blake3 bytes)

def policy : KnotSyncPolicy where
  spaceId
  writers
  encryption := cipher.profile

def opaqueEntries (entries : MigrationEntries) : MigrationEntries :=
  entries.filter fun key _ =>
    decide (key ≠ checkpointKey spaceId ∧ key ≠ communalKeyringKey spaceId ∧
      key ≠ markerKey spaceId)

def retainedHistory (entries : MigrationEntries) : Except String (List StoredKnotOperation) :=
  host.retained (opaqueEntries spaceId entries)

def replica (entries : MigrationEntries) : LocalStore where
  sync := {
    records := (retainedHistory host spaceId entries).toOption.getD []
    policy := policy host spaceId writers cipher }
  backend := opaqueEntries spaceId entries
  storageFresh := true

def replicaFaults (entries : MigrationEntries) : LocalFaults where
  load := match retainedHistory host spaceId entries with
    | .error reason => some reason
    | .ok _ => none

section Prepare

variable (entries : MigrationEntries)

def openRecord (kind : RecordKind) (bytes : ByteArray) : Except CheckpointError ByteArray :=
  (replica host spaceId writers cipher entries).openLocal host.toCheckpointHost vault kind bytes

def openOrLegacy (kind : RecordKind) (bytes : ByteArray) :
    Except CheckpointError (ByteArray × Bool) :=
  match openRecord host spaceId writers cipher vault entries kind bytes with
  | .ok plaintext => .ok (plaintext, true)
  | .error .checkpointMigrationRequired => .ok (bytes, false)
  | .error error => .error error

def readMarker : Except CheckpointError Bool :=
  match entries[markerKey spaceId]? with
  | none => .ok false
  | some bytes => do
      let found ← openRecord host spaceId writers cipher vault entries .storageMarker bytes
      if found ≠ marker then .error (.checkpointStorage "invalid clean storage marker")
      else .ok true

def readCheckpoint : Except CheckpointError (Option KnotProjectionCheckpoint × Bool) :=
  match entries[checkpointKey spaceId]? with
  | none => .ok (none, true)
  | some bytes => do
      let opened ← openOrLegacy host spaceId writers cipher vault entries .checkpoint bytes
      let value ← (host.checkpointFromJson opened.1).mapError fun _ =>
        CheckpointError.checkpointStorage "invalid legacy checkpoint; original retained for recovery"
      if value.version ≠ 1 ∨ value.spaceId ≠ spaceId then
        .error (.checkpointStorage "legacy checkpoint version or space mismatch")
      else .ok (some value, opened.2)

def readKeyring : Except CheckpointError (Option host.Keyring × Bool) :=
  match entries[communalKeyringKey spaceId]? with
  | none => .ok (none, true)
  | some bytes => do
      if cipher.profile ≠ .commonsDataV1 then .error (.sync .wrongEncryptionProfile)
      let opened ← openOrLegacy host spaceId writers cipher vault entries .communalKeyring bytes
      let keys ← (host.keyringFromBytes opened.1).mapError fun reason =>
        CheckpointError.sync (.groupCrypto reason)
      .ok (some keys, opened.2)

def checkKeyring (legacy : Option host.Keyring) : Except CheckpointError Unit :=
  match legacy, cipher with
  | none, _ => .ok ()
  | some _, .personal _ => .error (.sync .wrongEncryptionProfile)
  | some legacy, .commonsData keys => do
      if !(← LocalStore.keyringsMatch host.toCheckpointHost keys legacy) then
        .error (.checkpointStorage ("legacy group keyring differs from independently authorized " ++
          "keys; recover/reconcile through the membership owner"))
      else .ok ()

def retainsHead (records : List StoredKnotOperation) (head : KnotAuthorHead) : Bool :=
  records.any fun record => record.logId == head.logId &&
    record.operation.header.seqNum == head.seqNum &&
    record.operation.header.verifyingKey == head.author && record.operation.hash == head.operation

def checkHistory (records : List StoredKnotOperation) (old : Option KnotProjectionCheckpoint) :
    Except CheckpointError Unit :=
  match old with
  | none => .ok ()
  | some old =>
    if !old.heads.all (retainsHead records) then
      .error (.checkpointStorage ("legacy checkpoint head is absent from retained signed history; " ++
        "recover history before repair"))
    else if records.isEmpty && old.hasMaterial then
      .error (.checkpointStorage
        "legacy material has no retained signed history; recovery required")
    else .ok ()

def sealRecord (kind : RecordKind) (plaintext : ByteArray) : Except CheckpointError ByteArray :=
  (replica host spaceId writers cipher entries).sealLocal host.toCheckpointHost vault kind plaintext

def sealedKeyring : Except CheckpointError (Option ByteArray) :=
  match cipher with
  | .personal _ => .ok none
  | .commonsData keys => do
      let plaintext ← (host.keyringToBytes keys).mapError fun reason =>
        CheckpointError.sync (.groupCrypto reason)
      let bytes ← sealRecord host spaceId writers cipher vault entries .communalKeyring plaintext
      .ok (some bytes)

def memoryStep (fault : Option String) : Except CheckpointError Unit :=
  match fault with
  | some reason => .error (.store reason)
  | none => .ok ()

def rebuild : Except CheckpointError (Bytes32 × Std.ExtTreeMap String (Option ByteArray)) := do
  let rebuilt ← (replica host spaceId writers cipher entries).buildCheckpointWithCipher
    host.toCheckpointHost (replicaFaults host spaceId entries) cipher.toSync
  if !rebuilt.pending.isEmpty then
    .error (.checkpointStorage ("retained history is causally incomplete; recover missing " ++
      "operations before repair"))
  let next ← checkpointDigest host rebuilt
  let plaintext ← (host.checkpointToJson rebuilt).mapError fun reason =>
    CheckpointError.sync (.payload reason)
  let checkpoint ← sealRecord host spaceId writers cipher vault entries .checkpoint plaintext
  let clean ← sealRecord host spaceId writers cipher vault entries .storageMarker marker
  let keyring ← sealedKeyring host spaceId writers cipher vault entries
  .ok (next, ((∅ : Std.ExtTreeMap String (Option ByteArray)).insert (checkpointKey spaceId)
    (some checkpoint)).insert (markerKey spaceId) (some clean) |>.insert
      (communalKeyringKey spaceId) keyring)

def prepare (memory : Option String) :
    Except CheckpointError (MigrationDecision × Option Bytes32 × Option Bytes32) := do
  memoryStep memory
  let marked ← readMarker host spaceId writers cipher vault entries
  let old ← readCheckpoint host spaceId writers cipher vault entries
  let previous ← old.1.mapM (checkpointDigest host)
  let keyring ← readKeyring host spaceId writers cipher vault entries
  if marked && old.2 && keyring.2 then .ok (.current, previous, previous)
  else do
    checkKeyring host cipher keyring.1
    let records ← (replica host spaceId writers cipher entries).loadOperations
      (replicaFaults host spaceId entries)
    checkHistory records old.1
    let rebuilt ← rebuild host spaceId writers cipher vault entries
    .ok (.rewrite rebuilt.2, previous, some rebuilt.1)

end Prepare

def saveCheckpoint (store : LocalStore) (faults : LocalFaults) :
    Except CheckpointError (KnotProjectionCheckpoint × LocalStore) :=
  match cipher with
  | .commonsData keys => store.saveCommunalCheckpoint host.toCheckpointHost faults keys vault
  | .personal own => do
      (store.sync.requireCipher (.personal own)).mapError CheckpointError.sync
      let _ ← store.loadCheckpoint host.toCheckpointHost faults vault
      let checkpoint ← store.buildCheckpointWithCipher host.toCheckpointHost faults (.personal own)
      let plaintext ← (host.checkpointToJson checkpoint).mapError fun reason =>
        CheckpointError.sync (.payload reason)
      let sealedCheckpoint ← store.sealLocal host.toCheckpointHost vault .checkpoint plaintext
      let markerWrite ← store.storageMarkerWrite host.toCheckpointHost vault
      let saved ← store.apply faults [(checkpointKey store.spaceId, sealedCheckpoint), markerWrite]
      .ok (checkpoint, saved)

def createStore (faults : RepairFaults) : Except CheckpointError RepairedStore := do
  match faults.create with
  | some reason => .error (.checkpointStorage reason)
  | none => .ok ()
  (match faults.openSource with
    | some reason => .error (CheckpointError.store reason)
    | none => .ok ())
  if faults.appeared.isSome then .error .checkpointMigrationRequired
  let empty : LocalStore := {
    sync := { records := [], policy := policy host spaceId writers cipher }
    backend := ∅
    storageFresh := true }
  let saved ← saveCheckpoint host cipher vault empty faults.fresh
  let checkpoint ← checkpointDigest host saved.1
  .ok ⟨saved.2, {
    rewritten := false
    previousCheckpoint := none
    checkpoint := some checkpoint
    preservedKeys := 0 }⟩

def migrationFailure (error : MigrationError) : RepairError :=
  if error.replacementCommitted then .checkpointReplacementDurability error.text
  else .sync (.checkpointStorage error.text)

def openExisting (faults : RepairFaults) (files : MigrationFiles) :
    Except RepairError RepairedStore × MigrationFiles :=
  -- The preparation sees the entries of the file, and what it observed goes into the receipt.
  let observe (entries : MigrationEntries) :=
    (prepare host spaceId writers cipher vault entries faults.memory).mapError CheckpointError.text
  let opened := Migration.openOrRewrite host.migration (repairScope spaceId)
    (fun entries => (observe entries).map Prod.fst) faults.toMigrationFaults files
  match opened.1, observe files.active with
  | .error error, _ => (.error (migrationFailure error), opened.2)
  | .ok _, .error _ =>
    (.error (.sync (.checkpointStorage "repair receipt missing")), opened.2)
  | .ok closed, .ok (_, previous, checkpoint) =>
    (.ok ⟨{
        sync := {
          records := (host.retained closed.backend).toOption.getD []
          policy := policy host spaceId writers cipher }
        backend := closed.backend
        storageFresh := false }, {
        rewritten := closed.receipt.rewritten
        previousCheckpoint := previous
        checkpoint
        preservedKeys := closed.receipt.preservedKeyCount }⟩, opened.2)

def openWithCheckpointRepair (faults : RepairFaults) (file : Option MigrationEntries) :
    Except RepairError RepairedStore × Option MigrationEntries :=
  if host.isLocked vault then
    (.error (.sync (.checkpointStorage "local storage vault is locked")), file)
  else
    match faults.lookup, file with
    | some reason, file => (.error (.sync (.checkpointStorage reason)), file)
    | none, none =>
      match createStore host spaceId writers cipher vault faults with
      | .error error =>
        (.error (.sync error),
          if faults.create.isSome then none else some (faults.appeared.getD ∅))
      | .ok made => (.ok made, some made.store.backend)
    | none, some entries =>
      let opened := openExisting host spaceId writers cipher vault faults ⟨entries, none⟩
      (opened.1, some opened.2.active)

end CheckpointRepair

end KnotEditor
