import KnotEditor.Endpoint.VaultSource
import KnotEditor.Sync.SpaceAuthority

/-! Opening a persona's vault when a process starts. The documents of a vault that was never synced
are authored one by one, and the resident source then replaces the vault by what its operation
store projects. Each step may fail, and a process that stops before a step leaves what a failure of
that step leaves. -/

namespace KnotEditor

def spaceIdContext : String := "mere.knot.persona-vault.space.v1"

structure StartupFaults extends VaultFaults where
  createDirectory : Option String := none
  openStore : Option String := none
  inspect : Option KnotSyncError := none
  author : VaultDocument → Option KnotSyncError := fun _ => none

structure ResidentFaults extends SourceFaults where
  loadCheckpoint : Option String := none

structure StartupUnlockedPersonalVault where
  vault : KnotVault
  store : KnotSyncStore
  signingSeed : Bytes32

structure Authoring where
  store : KnotSyncStore
  document : VaultDocument

structure VaultMigration where
  result : Except String Unit
  store : KnotSyncStore
  authored : List Authoring

/-- What `open` returns, and what it leaves where it fails. -/
structure StartupOpening where
  result : Except String StartupUnlockedPersonalVault
  store : KnotSyncStore
  authored : List Authoring

def KnotDocumentProjection.showsNothing (projection : KnotDocumentProjection) : Bool :=
  projection.documents.isEmpty && projection.conflicts.isEmpty && projection.pending.isEmpty

section

variable (host : SourceHost)

namespace PersonalVaultKeys

variable (keys : PersonalVaultKeys)

def store (persona : ByteArray) (admitted : List Bytes32) (records : List StoredKnotOperation) :
    KnotSyncStore where
  records
  policy := {
    spaceId := host.deriveHash spaceIdContext persona
    writers := keys.writers host.sync.verifyingKey admitted
    encryption := .personalVaultV1 }

def vault (index : VaultIndex) : KnotVault where
  store := some keys.vaultKey
  syncKey := some (host.vault.deriveKey Vault.syncKeyContext keys.vaultKey)
  index

def cipher : KnotSyncCipher := .personal ((keys.vault host emptyIndex).syncVault host)

end PersonalVaultKeys

def authorDocument (signingSeed : Bytes32) (cipher : KnotSyncCipher) (store : KnotSyncStore)
    (document : VaultDocument) (fault : Option KnotSyncError) : Except String KnotSyncStore :=
  match store.authorOrFault host.sync signingSeed cipher (.put document) fault with
  | .error error => .error s!"could not author Knot persona document: {error.text}"
  | .ok (_, authored) => .ok authored

/-- The loop of the migration: the documents before the first failure stay authored. -/
def migrateDocuments (signingSeed : Bytes32) (cipher : KnotSyncCipher)
    (faults : VaultDocument → Option KnotSyncError) :
    KnotSyncStore → List VaultDocument → VaultMigration
  | store, [] => ⟨.ok (), store, []⟩
  | store, document :: rest =>
    match authorDocument host signingSeed cipher store document (faults document) with
    | .error error => ⟨.error error, store, []⟩
    | .ok authored =>
      let migrated := migrateDocuments signingSeed cipher faults authored rest
      { migrated with authored := ⟨store, document⟩ :: migrated.authored }

namespace StartupUnlockedPersonalVault

variable (unlocked : StartupUnlockedPersonalVault)

def cipher : KnotSyncCipher := .personal (unlocked.vault.syncVault host)

def migrateUnsyncedVault (faults : StartupFaults) : VaultMigration :=
  match unlocked.store.projectionOrFault host.sync (unlocked.cipher host) faults.inspect with
  | .error error =>
    ⟨.error s!"could not inspect Knot persona sync store: {error.text}", unlocked.store, []⟩
  | .ok projection =>
    if !projection.showsNothing then
      ⟨.ok (), unlocked.store, []⟩
    else
      migrateDocuments host unlocked.signingSeed (unlocked.cipher host) faults.author
        unlocked.store unlocked.vault.index.documents

def «open» (disk : VaultDisk host.vault) (records : List StoredKnotOperation)
    (persona : ByteArray) (keys : PersonalVaultKeys) (admitted : List Bytes32)
    (faults : StartupFaults) : StartupOpening :=
  let store := keys.store host persona admitted records
  match faults.createDirectory with
  | some error => ⟨.error s!"could not create Knot persona vault: {error}", store, []⟩
  | none =>
    match KnotVault.open host.vault disk keys.vaultKey faults.toVaultFaults with
    | .error error => ⟨.error error, store, []⟩
    | .ok vault =>
      match faults.openStore with
      | some error =>
        ⟨.error (s!"could not open Knot persona sync store; another resident may already " ++
          s!"own this persona: {error}"), store, []⟩
      | none =>
        let migrated := migrateUnsyncedVault host
          { vault, store, signingSeed := keys.signingSeed } faults
        ⟨migrated.result.map fun _ =>
            { vault, store := migrated.store, signingSeed := keys.signingSeed },
          migrated.store, migrated.authored⟩

def intoResidentSource (disk : VaultDisk host.vault) (faults : ResidentFaults) :
    VaultSource.Outcome host Unit :=
  let authority := VaultSyncAuthority.personal unlocked.signingSeed
  match faults.loadCheckpoint with
  | some error =>
    ⟨.error s!"could not open protected Knot checkpoint: {error}",
      .unread unlocked.vault authority, disk⟩
  | none =>
    VaultSource.open host unlocked.vault authority disk unlocked.store faults.toSourceFaults

end StartupUnlockedPersonalVault

/-- What the processes of one persona leave on disk. The resident source is that of the last one,
where it came so far; `authored` is every migration's work. -/
structure StartupWorld where
  disk : VaultDisk host.vault
  records : List StoredKnotOperation
  resident : Option (VaultSource × KnotSyncStore)
  authored : List Authoring

end

/-- One process: `resident` is none where it stops before `into_resident_source`. -/
structure Startup where
  admitted : List Bytes32
  opening : StartupFaults
  resident : Option ResidentFaults

namespace StartupWorld

variable {host : SourceHost}

def before (disk : VaultDisk host.vault) (records : List StoredKnotOperation) :
    StartupWorld host where
  disk
  records
  resident := none
  authored := []

variable (persona : ByteArray) (keys : PersonalVaultKeys) (world : StartupWorld host)

def opening (startup : Startup) : StartupOpening :=
  StartupUnlockedPersonalVault.open host world.disk world.records persona keys startup.admitted
    startup.opening

def perform (startup : Startup) : StartupWorld host :=
  let opened := world.opening persona keys startup
  match opened.result, startup.resident with
  | .ok unlocked, some faults =>
    let source := unlocked.intoResidentSource host world.disk faults
    { disk := source.disk
      records := opened.store.records
      resident := source.result.toOption.map fun _ => (source.source, opened.store)
      authored := world.authored ++ opened.authored }
  | _, _ =>
    { disk := world.disk
      records := opened.store.records
      resident := none
      authored := world.authored ++ opened.authored }

end StartupWorld

end KnotEditor
