import KnotEditor.Sync.Checkpoint

/-! Epoch pruning of a commons: which epochs a checkpointed replica still needs, the proposal made
from them, and the reviewed execution that forgets keys. -/

namespace KnotEditor

inductive EpochHoldReason
  | decryptionReachability
  | pendingCausality
  | authorityReevaluation
  | offlineMember (member : Bytes32)
  deriving DecidableEq

structure EpochHold where
  epoch : Bytes32
  reason : EpochHoldReason
  deriving DecidableEq

structure EpochCheckpointBasis where
  checkpoint : Bytes32
  authorityRevision : Bytes32
  currentAuthorityRevision : Bytes32
  authorContinuationReady : Bool
  deriving DecidableEq

structure EpochRetentionFacts where
  checkpoint : Option EpochCheckpointBasis
  holds : List EpochHold
  deriving DecidableEq

structure KnotOfflineMemberEpochHold where
  member : Bytes32
  epoch : Bytes32

structure KnotEpochExecutionReceipt where
  version : Nat
  spaceId : Bytes32
  checkpoint : Bytes32
  authorityRevision : Bytes32
  forgotten : List Bytes32
  retained : List Bytes32
  previousKeyring : Bytes32
  persistedKeyring : Bytes32
  deriving DecidableEq

/-- What pruning adds to the host: the keyring's epochs, and the policy that makes proposals. -/
structure PruningHost extends CheckpointHost where
  holdsEpoch : Keyring → Bytes32 → Bool
  forgetAuthorized : Keyring → Bytes32 → Bool × Keyring
  epochsOldestFirst : Keyring → Option (List Bytes32)
  Proposal : Type
  sameProposal : DecidableEq Proposal
  proposeEpochPruning : Keyring → EpochRetentionFacts → Proposal
  isExecutable : Proposal → Bool
  proposalCheckpoint : Proposal → Option Bytes32
  forget : Proposal → List Bytes32
  receiptToJson : KnotEpochExecutionReceipt → Except String ByteArray

attribute [instance] PruningHost.sameProposal

def communalEpochReceiptKey (spaceId : Bytes32) : String :=
  "knot-sync/commons-epoch-receipt/" ++ hex32 spaceId

def communalOperationEpoch (host : SyncHost) (operation : Operation) :
    Except CheckpointError Bytes32 :=
  match operation.body with
  | none => .error (.sync (.payload "operation body is absent"))
  | some body =>
    match host.decodeEnvelope body with
    | .error reason => .error (.sync (.payload reason))
    | .ok envelope => .ok envelope.epoch

def KnotSyncEvent.isCaptureMaterial : KnotSyncEvent → Bool
  | .captureFileRevision _ | .retainCompositionV1 _ | .organizeCompositionV1 _ _ _ _
  | .assertRelation _ _ _ _ _ | .retractRelation _ | .definePredicate _ _ _ _ _ _ _ => true
  | .put _ | .delete _ | .resolve _ _ _ => false

def hasCaptureMaterial (host : SyncHost) (cipher : KnotSyncCipher) :
    List Operation → Except CheckpointError Bool
  | [] => .ok false
  | operation :: rest =>
    match decodeEvent host cipher operation with
    | .error error => .error (.sync error)
    | .ok event => if event.isCaptureMaterial then .ok true else hasCaptureMaterial host cipher rest

def holdEpoch (host : SyncHost) (reason : EpochHoldReason) (operation : Operation) :
    Except CheckpointError EpochHold :=
  (communalOperationEpoch host operation).map fun epoch => ⟨epoch, reason⟩

def KnotProjectionCheckpoint.headSeq (checkpoint : KnotProjectionCheckpoint) (author : Bytes32)
    (log : Nat) : Option UInt32 :=
  (checkpoint.heads.reverse.find? fun head =>
    decide (head.author = author) && decide (head.logId = log)).map KnotAuthorHead.seqNum

def KnotProjectionCheckpoint.inTail (checkpoint : KnotProjectionCheckpoint)
    (record : StoredKnotOperation) : Bool :=
  match checkpoint.headSeq record.operation.header.verifyingKey record.logId with
  | none => true
  | some seqNum => decide (seqNum < record.operation.header.seqNum)

def tailKey (record : StoredKnotOperation) : Bytes32 ×ₗ Nat ×ₗ Nat ×ₗ Bytes32 :=
  toLex (record.operation.header.verifyingKey, toLex (record.logId,
    toLex (record.operation.header.seqNum.toNat, record.operation.hash)))

def KnotProjectionCheckpoint.tail (checkpoint : KnotProjectionCheckpoint)
    (records : List StoredKnotOperation) : List Bytes32 :=
  ((records.filter checkpoint.inTail).mergeSort fun one two =>
    decide (tailKey one ≤ tailKey two)).map fun record => record.operation.hash

structure KnotTailReceipt where
  checkpoint : Bytes32
  operations : List Bytes32
  deriving DecidableEq

def recordOf (records : List StoredKnotOperation) (hash : Bytes32) : Option StoredKnotOperation :=
  records.reverse.find? fun record => decide (record.operation.hash = hash)

def holdNamed (host : SyncHost) (records : List StoredKnotOperation) (reason : EpochHoldReason)
    (absent : String) (hash : Bytes32) : Except CheckpointError EpochHold :=
  match recordOf records hash with
  | none => .error (.sync (.payload absent))
  | some record => holdEpoch host reason record.operation

namespace LocalStore

variable (host : PruningHost) (store : LocalStore) (faults : LocalFaults)

def checkpointDigest (checkpoint : KnotProjectionCheckpoint) : Except CheckpointError Bytes32 := do
  let bytes ← (host.checkpointToJson checkpoint).mapError fun reason =>
    CheckpointError.sync (.payload reason)
  .ok (host.blake3 bytes)

def tailReceipt (vault : host.Vault) : Except CheckpointError KnotTailReceipt := do
  match ← store.loadCheckpoint host.toCheckpointHost faults vault with
  | none => .error .missingCheckpoint
  | some checkpoint => do
      let digest ← checkpointDigest host checkpoint
      let records ← store.loadOperations faults
      .ok ⟨digest, checkpoint.tail records⟩

def closedHolds (keys : host.Keyring) (records : List StoredKnotOperation) :
    Except CheckpointError (List EpochHold) := do
  let projection ← (host.causalProjection (causalEntries records)).mapError fun reason =>
    CheckpointError.sync (.causal reason)
  let closed := operationsAt records projection.order
  if ← hasCaptureMaterial host.toSyncHost (.commonsData (host.dataKeyring keys)) closed then
    closed.mapM (holdEpoch host.toSyncHost .decryptionReachability)
  else .ok []

def tailHolds (records : List StoredKnotOperation) (tail : KnotTailReceipt) :
    Except CheckpointError (List EpochHold) :=
  tail.operations.mapM (holdNamed host.toSyncHost records .decryptionReachability
    "checkpoint tail names an operation absent from the retained store")

def pendingHolds (records : List StoredKnotOperation) (checkpoint : KnotProjectionCheckpoint) :
    Except CheckpointError (List EpochHold) :=
  checkpoint.pending.mapM fun pending => holdNamed host.toSyncHost records .pendingCausality
    "checkpoint pending set names an operation absent from the retained store" pending.1

structure PruningRequest where
  checkpointAuthorityRevision : Bytes32
  currentAuthorityRevision : Bytes32
  authorityReevaluationEpochs : List Bytes32
  offlineMembers : List KnotOfflineMemberEpochHold

def requestedHolds (request : PruningRequest) : List EpochHold :=
  (request.authorityReevaluationEpochs.map fun epoch => ⟨epoch, .authorityReevaluation⟩) ++
    request.offlineMembers.map fun hold => ⟨hold.epoch, .offlineMember hold.member⟩

def checkpointBasis (keys : host.Keyring) (checkpoint : KnotProjectionCheckpoint)
    (tail : KnotTailReceipt) (request : PruningRequest) :
    Except CheckpointError EpochCheckpointBasis := do
  let current ← store.buildCheckpointWithCipher host.toCheckpointHost faults
    (.commonsData (host.dataKeyring keys))
  let digest ← checkpointDigest host checkpoint
  .ok {
    checkpoint := digest
    authorityRevision := request.checkpointAuthorityRevision
    currentAuthorityRevision := request.currentAuthorityRevision
    authorContinuationReady := checkpoint.snapshot.isSome && tail.operations.isEmpty &&
      decide (current = checkpoint) }

def epochRetentionFacts (keys : host.Keyring) (vault : host.Vault) (request : PruningRequest) :
    Except CheckpointError EpochRetentionFacts := do
  if store.profile ≠ .commonsDataV1 then
    .error (.sync .wrongEncryptionProfile)
  store.validateKeyringMatches host.toCheckpointHost faults vault keys
  let records ← store.loadOperations faults
  match ← store.loadCheckpoint host.toCheckpointHost faults vault with
  | none => do
      let holds ← records.mapM fun record =>
        holdEpoch host.toSyncHost .decryptionReachability record.operation
      .ok ⟨none, holds ++ requestedHolds request⟩
  | some checkpoint => do
      let tail ← store.tailReceipt host faults vault
      let closed ← closedHolds host keys records
      let later ← tailHolds host records tail
      let pending ← pendingHolds host records checkpoint
      let basis ← store.checkpointBasis host faults keys checkpoint tail request
      .ok ⟨some basis, closed ++ later ++ pending ++ requestedHolds request⟩

def communalEpochPruningProposal (keys : host.Keyring) (vault : host.Vault)
    (request : PruningRequest) : Except CheckpointError host.Proposal := do
  let facts ← store.epochRetentionFacts host faults keys vault request
  .ok (host.proposeEpochPruning keys facts)

def forgetAll (keys : host.Keyring) (epochs : List Bytes32) : Except CheckpointError host.Keyring :=
  epochs.foldlM (fun keys epoch =>
    let (forgotten, reduced) := host.forgetAuthorized keys epoch
    if forgotten then .ok reduced else .error .staleRetentionProposal) keys

structure PruningExecution where
  reduced : host.Keyring
  receipt : KnotEpochExecutionReceipt
  writes : List (String × ByteArray)

def reviewedReduction (keys : host.Keyring) (vault : host.Vault) (reviewed : host.Proposal)
    (request : PruningRequest) : Except CheckpointError (PruningExecution host) := do
  let current ← store.communalEpochPruningProposal host faults keys vault request
  if current ≠ reviewed then
    .error .staleRetentionProposal
  if !host.isExecutable current then
    .error .blockedRetentionProposal
  match host.proposalCheckpoint current with
  | none => .error .blockedRetentionProposal
  | some checkpoint => do
      let before ← (host.keyringToBytes keys).mapError fun reason =>
        CheckpointError.sync (.groupCrypto reason)
      let restored ← (host.keyringFromBytes before).mapError fun reason =>
        CheckpointError.sync (.groupCrypto reason)
      let reduced ← forgetAll host restored (host.forget current)
      let after ← (host.keyringToBytes reduced).mapError fun reason =>
        CheckpointError.sync (.groupCrypto reason)
      let sealedKeyring ← store.sealLocal host.toCheckpointHost vault .communalKeyring after
      match host.epochsOldestFirst reduced with
      | none => .error (.sync (.payload "executed keyring lost its proven epoch chronology"))
      | some retained => do
          let receipt : KnotEpochExecutionReceipt := {
            version := 1
            spaceId := store.spaceId
            checkpoint
            authorityRevision := request.checkpointAuthorityRevision
            forgotten := host.forget current
            retained
            previousKeyring := host.blake3 before
            persistedKeyring := host.blake3 after }
          let markerWrite ← store.storageMarkerWrite host.toCheckpointHost vault
          let receiptBytes ← (host.receiptToJson receipt).mapError fun reason =>
            CheckpointError.sync (.payload reason)
          .ok ⟨reduced, receipt, [(communalKeyringKey store.spaceId, sealedKeyring), markerWrite,
            (communalEpochReceiptKey store.spaceId, receiptBytes)]⟩

def executeCommunalEpochPruning (keys : host.Keyring) (vault : host.Vault)
    (reviewed : host.Proposal) (request : PruningRequest) :
    Except CheckpointError KnotEpochExecutionReceipt × host.Keyring × LocalStore :=
  match store.reviewedReduction host faults keys vault reviewed request with
  | .error error => (.error error, keys, store)
  | .ok execution =>
    match store.apply faults execution.writes with
    | .error error => (.error error, keys, store)
    | .ok written => (.ok execution.receipt, execution.reduced, written)

end LocalStore

end KnotEditor
