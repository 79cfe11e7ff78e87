import KnotEditor.Sync.Event

/-! The sealed document vault: an index held in memory beside the sealed record it is saved to.
Sealing and the record store belong to another crate; each record operation may fail. -/

namespace KnotEditor

namespace Vault

def indexVersion : UInt64 := 1
def syncKeyContext : String := "mere.knot.personal-vault-sync.v1"
def derivedCachePathContext : String := "mere.knot.derived-cache-path.v1"

end Vault

structure VaultIndex where
  version : UInt64
  revision : UInt64
  documents : List VaultDocument
  deriving DecidableEq

structure VaultHost where
  Envelope : Type
  deriveKey : String → Bytes32 → Bytes32
  keyedHash : Bytes32 → ByteArray → Bytes32
  sealRecord : Bytes32 → VaultIndex → Envelope
  unsealRecord : Bytes32 → Envelope → Except String VaultIndex

variable (host : VaultHost)

/-- The records under the vault's root: the sealed index, and the paths of derived caches. -/
structure VaultDisk where
  index : Option host.Envelope
  derivedCaches : List String

structure VaultFaults where
  loadRecord : Option String := none
  saveRecord : Option String := none
  deleteRecord : String → Option String := fun _ => none

/-- `store` is the key of the record storage while the vault is unlocked. -/
structure KnotVault where
  store : Option Bytes32
  syncKey : Option Bytes32
  index : VaultIndex
  deriving DecidableEq

def emptyIndex : VaultIndex :=
  { version := Vault.indexVersion, revision := 0, documents := [] }

def loadRecord (key : Bytes32) (disk : VaultDisk host) (fault : Option String) :
    Except String (Option VaultIndex) :=
  match fault with
  | some error => .error error
  | none =>
    match disk.index with
    | none => .ok none
    | some envelope => (host.unsealRecord key envelope).map some

/-- The index on disk as `open` reads it: an absent record is the empty index. -/
def loadIndex (key : Bytes32) (disk : VaultDisk host) (fault : Option String) :
    Except String VaultIndex :=
  match loadRecord host key disk fault with
  | .error error => .error s!"could not load Knot vault: {error}"
  | .ok record =>
    let index := record.getD emptyIndex
    if index.version ≠ Vault.indexVersion then
      .error s!"unsupported Knot vault index version {index.version}"
    else
      .ok index

def nextRevision (revision : UInt64) : UInt64 :=
  max (if revision = UInt64.ofNat (2 ^ 64 - 1) then revision else revision + 1) 1

def sortDocuments (documents : List VaultDocument) : List VaultDocument :=
  documents.mergeSort fun left right => decide (left.id ≤ right.id)

def upsertDocument (document : VaultDocument) : List VaultDocument → List VaultDocument
  | [] => [document]
  | existing :: rest =>
    if existing.id = document.id then document :: rest
    else existing :: upsertDocument document rest

namespace KnotVault

def isLocked (vault : KnotVault) : Bool := vault.store.isNone

def body (vault : KnotVault) (id : String) : Option ByteArray :=
  if vault.isLocked then none
  else (vault.index.documents.find? fun document => document.id == id).map VaultDocument.body

def lock (_ : KnotVault) : KnotVault :=
  { store := none, syncKey := none, index := { version := 0, revision := 0, documents := [] } }

def unlock (vault : KnotVault) (disk : VaultDisk host) (key : Bytes32) (fault : Option String) :
    Except String KnotVault :=
  if !vault.isLocked then .ok vault
  else
    match loadRecord host key disk fault with
    | .error error => .error s!"could not unlock Knot vault: {error}"
    | .ok none => .error "Knot vault index is absent"
    | .ok (some index) =>
      if index.version ≠ Vault.indexVersion then
        .error s!"unsupported Knot vault index version {index.version}"
      else
        .ok { store := some key, syncKey := some (host.deriveKey Vault.syncKeyContext key), index }

structure Outcome (α : Type) where
  result : Except String α
  vault : KnotVault
  disk : VaultDisk host

def «open» (disk : VaultDisk host) (key : Bytes32) (faults : VaultFaults) :
    Except String KnotVault :=
  match loadIndex host key disk faults.loadRecord with
  | .error error => .error error
  | .ok index =>
    .ok { store := some key, syncKey := some (host.deriveKey Vault.syncKeyContext key), index }

def save (vault : KnotVault) (disk : VaultDisk host) (faults : VaultFaults) :
    Except String Unit × VaultDisk host :=
  match vault.store with
  | none => (.error "Knot vault is locked", disk)
  | some key =>
    match faults.saveRecord with
    | some error => (.error s!"could not save Knot vault: {error}", disk)
    | none => (.ok (), { disk with index := some (host.sealRecord key vault.index) })

def put (vault : KnotVault) (disk : VaultDisk host) (document : VaultDocument)
    (faults : VaultFaults) : Outcome host Unit :=
  if vault.store.isNone then
    ⟨.error "Knot vault is locked", vault, disk⟩
  else
    let documents := sortDocuments (upsertDocument document vault.index.documents)
    let revision := nextRevision vault.index.revision
    let changed := { vault with index := { vault.index with documents, revision } }
    let saved := changed.save host disk faults
    ⟨saved.1, changed, saved.2⟩

def derivedCachePath (vault : KnotVault) (id : String) : Except String String :=
  match vault.syncKey with
  | none => .error "Knot vault is locked"
  | some key =>
    let pathKey := host.deriveKey Vault.derivedCachePathContext key
    let digest := host.keyedHash pathKey id.toUTF8
    .ok s!"knot/derived-cache/{hex32 digest}.json"

def deleteDerivedCache (vault : KnotVault) (disk : VaultDisk host) (id : String)
    (faults : VaultFaults) : Except String (VaultDisk host) :=
  match derivedCachePath host vault id with
  | .error error => .error error
  | .ok path =>
    match vault.store, faults.deleteRecord id with
    | none, _ => .error "Knot vault is locked"
    | some _, some error => .error s!"could not delete Knot derived cache: {error}"
    | some _, none =>
      .ok { disk with derivedCaches := disk.derivedCaches.filter (· ≠ path) }

def deleteDerivedCaches (vault : KnotVault) (faults : VaultFaults) :
    VaultDisk host → List String → Except String Unit × VaultDisk host
  | disk, [] => (.ok (), disk)
  | disk, id :: rest =>
    match vault.deleteDerivedCache host disk id faults with
    | .error error => (.error error, disk)
    | .ok remaining => deleteDerivedCaches vault faults remaining rest

def removedIds (vault : KnotVault) (documents : List VaultDocument) : List String :=
  (vault.index.documents.filter fun current =>
    !documents.any fun replacement => replacement.id == current.id).map VaultDocument.id

def replaceProjection (vault : KnotVault) (disk : VaultDisk host)
    (documents : List VaultDocument) (faults : VaultFaults) : Outcome host Bool :=
  if vault.store.isNone then
    ⟨.error "Knot vault is locked", vault, disk⟩
  else
    let documents := sortDocuments documents
    if vault.index.documents = documents then
      ⟨.ok false, vault, disk⟩
    else
      match vault.deleteDerivedCaches host faults disk (vault.removedIds documents) with
      | (.error error, remaining) => ⟨.error error, vault, remaining⟩
      | (.ok (), remaining) =>
        let revision := nextRevision vault.index.revision
        let changed := { vault with index := { vault.index with documents, revision } }
        match changed.save host remaining faults with
        | (.error error, saved) => ⟨.error error, changed, saved⟩
        | (.ok (), saved) => ⟨.ok true, changed, saved⟩

end KnotVault

structure VaultWorld where
  vault : KnotVault
  disk : VaultDisk host

inductive VaultCall
  | put (document : VaultDocument) (faults : VaultFaults)
  | replaceProjection (documents : List VaultDocument) (faults : VaultFaults)

def VaultWorld.perform (world : VaultWorld host) : VaultCall → VaultWorld host
  | .put document faults =>
    let outcome := world.vault.put host world.disk document faults
    ⟨outcome.vault, outcome.disk⟩
  | .replaceProjection documents faults =>
    let outcome := world.vault.replaceProjection host world.disk documents faults
    ⟨outcome.vault, outcome.disk⟩

end KnotEditor
