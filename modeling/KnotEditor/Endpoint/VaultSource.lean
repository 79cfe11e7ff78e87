import KnotEditor.DocumentFormat
import KnotEditor.Sync.Authoring
import KnotEditor.Vault
import Std.Data.ExtTreeSet

/-! The vault authority behind every local session: the sealed vault beside what the last
projection of its operation store said. The store is a handle shared with the sync host, and
operations arrive in it at any time; the source itself is behind one lock. -/

namespace KnotEditor

structure SourceHost where
  sync : SyncHost
  vault : VaultHost
  sealBytes : Bytes32 → ByteArray → ByteArray → Except String ByteArray
  unsealBytes : Bytes32 → ByteArray → ByteArray → Except String ByteArray
  deriveHash : String → ByteArray → Bytes32
  epochIds : DataKeyring → List Bytes32
  currentEpoch : DataKeyring → Option Bytes32
  validateSource : DocumentFormat → String → String → Except String Unit

structure SourceFaults extends VaultFaults where
  loadOperations : Option KnotSyncError := none

structure KnotWriteGrant where
  maxSourceBytes : UInt64

structure SaveText where
  baseToken : ByteArray
  source : String

inductive IntentResult
  | accepted
  | stale (currentEpoch currentRevision : UInt64)
  | rejected (reason : String)
  deriving DecidableEq

structure PresentedDocument where
  id : String
  address : String
  title : String
  mediaType : String
  byteSize : Nat
  deriving DecidableEq

structure EditableText where
  address : String
  mediaType : String
  source : String
  publicRevision : Option Bytes32
  baseToken : ByteArray
  deriving DecidableEq

inductive VaultSyncAuthority
  | personal (signingSeed : Bytes32)
  | commons (signingSeed : Bytes32) (keys : DataKeyring)

structure VaultSource where
  vault : KnotVault
  sync : Option VaultSyncAuthority
  conflicts : Std.ExtTreeSet String
  documentHeads : DocumentHeads
  pendingHistory : Bool

def vaultIdStart : String := "knot:vault:"

def vaultTokenContext : String := "mere.knot.vault-base-token.v1"

def nativeId (presented : String) : String := (stripStart presented vaultIdStart).getD presented

def lengthBytes (length : Nat) : List UInt8 :=
  (List.range 8).map fun place => (length >>> (8 * place)).toUInt8

def VaultDocument.withText (document : VaultDocument) (source : String) : VaultDocument where
  id := document.id
  title := document.title
  body := source.toUTF8
  mediaType := document.mediaType

def KnotSyncStore.accept (store : KnotSyncStore) (host : SyncHost) (operation : Operation) :
    KnotSyncStore :=
  (store.acceptUnderGate host operation).toOption.getD store

def KnotSyncStore.acceptAll (store : KnotSyncStore) (host : SyncHost)
    (operations : List Operation) : KnotSyncStore :=
  operations.foldl (fun store operation => store.accept host operation) store

def KnotSyncStore.projectionOrFault (store : KnotSyncStore) (host : SyncHost)
    (cipher : KnotSyncCipher) (fault : Option KnotSyncError) :
    Except KnotSyncError KnotDocumentProjection :=
  match fault with
  | some error => .error error
  | none => store.projectionWithCipher host cipher

def KnotSyncStore.authorOrFault (store : KnotSyncStore) (host : SyncHost) (signingSeed : Bytes32)
    (cipher : KnotSyncCipher) (event : KnotSyncEvent) (fault : Option KnotSyncError) :
    Except KnotSyncError (Operation × KnotSyncStore) :=
  match fault with
  | some error => .error error
  | none => store.authorWithCipherAt host signingSeed cipher event .now

section

variable (host : SourceHost)

def vaultBaseToken (id : String) (operation : Bytes32) : ByteArray :=
  ⟨(host.deriveHash vaultTokenContext
    (⟨(lengthBytes id.utf8ByteSize).toArray⟩ ++ id.toUTF8 ++ ⟨operation.bytes.toArray⟩)).bytes.toArray⟩

def KnotVault.syncVault (vault : KnotVault) : SyncVault where
  sealSyncPayload aad plaintext :=
    match vault.syncKey with
    | none => .error "Knot vault is locked"
    | some key => (host.sealBytes key aad plaintext).mapError fun error =>
      s!"could not seal Knot sync payload: {error}"
  unsealSyncPayload aad ciphertext :=
    match vault.syncKey with
    | none => .error "Knot vault is locked"
    | some key => (host.unsealBytes key aad ciphertext).mapError fun error =>
      s!"could not unseal Knot sync payload: {error}"

namespace VaultSyncAuthority

def signingSeed : VaultSyncAuthority → Bytes32
  | personal seed => seed
  | commons seed _ => seed

def cipher (vault : KnotVault) : VaultSyncAuthority → KnotSyncCipher
  | personal _ => .personal (vault.syncVault host)
  | commons _ keys => .commonsData keys

def projectFailure (error : KnotSyncError) : VaultSyncAuthority → String
  | personal _ => s!"could not project Knot sync store: {error.text}"
  | commons _ _ => s!"could not project Commons Knot store: {error.text}"

def authorFailure (error : KnotSyncError) : VaultSyncAuthority → String
  | personal _ => s!"could not author Knot save: {error.text}"
  | commons _ _ => s!"could not author Commons Knot save: {error.text}"

def projectSaveFailure (error : KnotSyncError) : VaultSyncAuthority → String
  | personal _ => s!"could not project Knot save: {error.text}"
  | commons _ _ => s!"could not project Commons Knot save: {error.text}"

end VaultSyncAuthority

namespace VaultSource

structure Outcome (α : Type) where
  result : Except String α
  source : VaultSource
  disk : VaultDisk host.vault

def unread (vault : KnotVault) (authority : VaultSyncAuthority) : VaultSource where
  vault
  sync := some authority
  conflicts := ∅
  documentHeads := ∅
  pendingHistory := false

variable (source : VaultSource)

/-- The projection's conflicts, heads and pending state are installed first; replacing the
documents may then fail. -/
def installProjection (disk : VaultDisk host.vault) (projection : KnotDocumentProjection)
    (faults : VaultFaults) : Outcome host Unit :=
  let replaced := source.vault.replaceProjection host.vault disk projection.documents faults
  { result := replaced.result.map fun _ => ()
    source := {
      vault := replaced.vault
      sync := source.sync
      conflicts := .ofList (projection.conflicts.map KnotDocumentConflict.id)
      documentHeads := projection.documentHeads
      pendingHistory := !projection.pending.isEmpty }
    disk := replaced.disk }

def project (store : KnotSyncStore) (fault : Option KnotSyncError) :
    Except String (Option KnotDocumentProjection) :=
  match source.sync with
  | none => .ok none
  | some authority =>
    match store.projectionOrFault host.sync (authority.cipher host source.vault) fault with
    | .error error => .error (authority.projectFailure error)
    | .ok projection => .ok (some projection)

def refreshProjection (disk : VaultDisk host.vault) (store : KnotSyncStore)
    (faults : SourceFaults) : Outcome host Unit :=
  match source.project host store faults.loadOperations with
  | .error error => ⟨.error error, source, disk⟩
  | .ok none => ⟨.ok (), source, disk⟩
  | .ok (some projection) => source.installProjection host disk projection faults.toVaultFaults

def refresh (disk : VaultDisk host.vault) (store : KnotSyncStore) (faults : SourceFaults) :
    Outcome host Unit :=
  if source.sync.isSome && !source.vault.isLocked then
    source.refreshProjection host disk store faults
  else
    ⟨.ok (), source, disk⟩

/-- `from_synced_vault` and `from_communal_vault`, after their check of the protected storage. -/
def «open» (vault : KnotVault) (authority : VaultSyncAuthority) (disk : VaultDisk host.vault)
    (store : KnotSyncStore) (faults : SourceFaults) : Outcome host Unit :=
  (unread vault authority).refreshProjection host disk store faults

def lockVault : VaultSource := { source with vault := source.vault.lock }

def unlockVault (disk : VaultDisk host.vault) (store : KnotSyncStore) (key : Bytes32)
    (faults : SourceFaults) : Outcome host Unit :=
  match source.vault.unlock host.vault disk key faults.loadRecord with
  | .error error => ⟨.error error, source, disk⟩
  | .ok vault => refreshProjection host { source with vault } disk store faults

/-- `persisted` is the answer of the checkpoint storage, where the handoff is sealed first. -/
def replaceCommunalKeys (disk : VaultDisk host.vault) (store : KnotSyncStore) (keys : DataKeyring)
    (persisted : Except KnotSyncError Unit) (faults : SourceFaults) : Outcome host Bool :=
  match source.sync, persisted with
  | some (.commons _ _), .error error =>
    ⟨.error s!"could not persist Commons Knot key handoff: {error.text}", source, disk⟩
  | some (.commons signingSeed current), .ok () =>
    let replaced := { source with sync := some (.commons signingSeed keys) }
    if host.epochIds current ≠ host.epochIds keys ∨
        host.currentEpoch current ≠ host.currentEpoch keys then
      let refreshed := replaced.refreshProjection host disk store faults
      ⟨refreshed.result.map fun _ => true, refreshed.source, refreshed.disk⟩
    else
      ⟨.ok false, replaced, disk⟩
  | some (.personal _), _ => ⟨.ok false, source, disk⟩
  | none, _ => ⟨.ok false, source, disk⟩

def presentDocument (document : VaultDocument) : PresentedDocument where
  id := vaultIdStart ++ document.id
  address := "knot://vault/" ++ document.id
  title := document.title
  mediaType := document.mediaType
  byteSize := document.body.size

def presentConflict (id : String) : PresentedDocument where
  id := vaultIdStart ++ id
  address := "knot://vault/" ++ id
  title := "Conflict: " ++ id
  mediaType := "text/vnd.knot"
  byteSize := 0

def documents : List PresentedDocument :=
  (source.vault.index.documents.map presentDocument ++
    source.conflicts.toList.map presentConflict).mergeSort
      fun left right => decide (left.id ≤ right.id)

def editable (grant : KnotWriteGrant) (id : String) : Option (String × Bytes32) := do
  if source.sync.isNone || source.pendingHistory || source.conflicts.contains id then none
  let body ← source.vault.body id
  if grant.maxSourceBytes.toNat < body.size then none
  let text ← String.fromUTF8? body
  let head ← source.documentHeads[id]?
  return (text, head)

def editableText (grant : Option KnotWriteGrant) (document : PresentedDocument) :
    Option EditableText := do
  let grant ← grant
  let _ ← DocumentFormat.fromMediaType document.mediaType
  let (text, head) ← source.editable grant (nativeId document.id)
  return {
    address := document.address
    mediaType := document.mediaType
    source := text
    publicRevision := some head
    baseToken := vaultBaseToken host (nativeId document.id) head }

/-- `save_text` until it takes the source's lock to author: an early answer, or none. `revision`
is the session's scene revision. -/
def prepareSave (grant : Option KnotWriteGrant) (revision : UInt64) (id : String)
    (payload : SaveText) : Except String (Option IntentResult) := do
  let some allowed := grant | .error "Knot session has no write grant"
  if allowed.maxSourceBytes.toNat < payload.source.utf8ByteSize then
    return some (.rejected s!"source exceeds this grant's {allowed.maxSourceBytes} byte limit")
  let some document := source.documents.find? fun document => document.id == id
    | .error "intent target is no longer present"
  let some current := source.editableText host grant document
    | return some (.rejected "this document is not currently writable")
  if payload.baseToken ≠ current.baseToken then
    return some (.stale 1 revision)
  if payload.source = current.source then
    return some .accepted
  let some format := DocumentFormat.fromMediaType current.mediaType
    | .error "document format is not authorable"
  host.validateSource format current.address payload.source
  return none

structure SaveOutcome where
  result : Except String IntentResult
  source : VaultSource
  disk : VaultDisk host.vault
  store : KnotSyncStore
  authored : Option Operation

/-- The vault arm of `save_text`, under the source's lock. Operations that arrive between the
authoring and the projection are in `arriving`. -/
def authorSave (disk : VaultDisk host.vault) (store : KnotSyncStore) (revision : UInt64)
    (id : String) (payload : SaveText) (arriving : List Operation)
    (authorFault : Option KnotSyncError) (faults : SourceFaults) : SaveOutcome host :=
  let native := nativeId id
  let unchanged result : SaveOutcome host := ⟨result, source, disk, store, none⟩
  match source.documentHeads[native]? with
  | none => unchanged (.ok (.stale 1 revision))
  | some head =>
    if vaultBaseToken host native head ≠ payload.baseToken then
      unchanged (.ok (.stale 1 revision))
    else
      match source.vault.index.documents.find? fun document => document.id == native with
      | none => unchanged (.error "vault document is no longer present")
      | some previous =>
        match source.sync with
        | none => unchanged (.error "vault has no admitted sync author")
        | some authority =>
          let cipher := authority.cipher host source.vault
          let event := KnotSyncEvent.put (previous.withText payload.source)
          match store.authorOrFault host.sync authority.signingSeed cipher event
              authorFault with
          | .error error => unchanged (.error (authority.authorFailure error))
          | .ok (operation, authored) =>
            let store := authored.acceptAll host.sync arriving
            match store.projectionOrFault host.sync cipher faults.loadOperations with
            | .error error =>
              ⟨.error (authority.projectSaveFailure error), source, disk, store,
                some operation⟩
            | .ok projection =>
              let installed := source.installProjection host disk projection
                faults.toVaultFaults
              ⟨installed.result.map fun _ => .accepted, installed.source,
                installed.disk, store, some operation⟩

end VaultSource

end

end KnotEditor
