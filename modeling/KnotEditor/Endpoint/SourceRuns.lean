import KnotEditor.Endpoint.VaultSource
import KnotEditor.Library.Fallible
import KnotEditor.Library.Run

/-! Runs of a resident source. Every call that installs a projection does it in one place, which is
where its documents and its heads can part. -/

namespace KnotEditor

open Fallible

variable (host : SourceHost)

structure ResidentWorld where
  source : VaultSource
  disk : VaultDisk host.vault
  store : KnotSyncStore

inductive SourceCall
  | accept (operation : Operation)
  | refresh (faults : SourceFaults)
  | lock
  | unlock (key : Bytes32) (faults : SourceFaults)
  | replaceKeys (keys : DataKeyring) (persisted : Except KnotSyncError Unit)
      (faults : SourceFaults)
  /-- The checks of a save read the source and change nothing. -/
  | prepare (grant : Option KnotWriteGrant) (revision : UInt64) (id : String) (payload : SaveText)
  | author (revision : UInt64) (id : String) (payload : SaveText) (arriving : List Operation)
      (authorFault : Option KnotSyncError) (faults : SourceFaults)

structure Reading where
  store : KnotSyncStore
  cipher : KnotSyncCipher
  projection : KnotDocumentProjection

structure Installation where
  source : VaultSource
  disk : VaultDisk host.vault
  reading : Reading
  faults : VaultFaults

namespace ResidentWorld

variable {host}

def perform (world : ResidentWorld host) : SourceCall → ResidentWorld host
  | .accept operation => { world with store := world.store.accept host.sync operation }
  | .refresh faults =>
    let outcome := world.source.refresh host world.disk world.store faults
    { world with source := outcome.source, disk := outcome.disk }
  | .lock => { world with source := world.source.lockVault }
  | .unlock key faults =>
    let outcome := world.source.unlockVault host world.disk world.store key faults
    { world with source := outcome.source, disk := outcome.disk }
  | .replaceKeys keys persisted faults =>
    let outcome :=
      world.source.replaceCommunalKeys host world.disk world.store keys persisted faults
    { world with source := outcome.source, disk := outcome.disk }
  | .prepare _ _ _ _ => world
  | .author revision id payload arriving authorFault faults =>
    let outcome := world.source.authorSave host world.disk world.store revision id payload
      arriving authorFault faults
    ⟨outcome.source, outcome.disk, outcome.store⟩

end ResidentWorld

namespace VaultSource

variable (source : VaultSource)

def reading (store : KnotSyncStore) (fault : Option KnotSyncError) : Option Reading :=
  match source.sync, source.project host store fault with
  | some authority, .ok (some projection) =>
    some ⟨store, authority.cipher host source.vault, projection⟩
  | _, _ => none

end VaultSource

namespace ResidentWorld

variable {host} (world : ResidentWorld host)

def refreshing (source : VaultSource) (faults : SourceFaults) : Option (Installation host) :=
  (source.reading host world.store faults.loadOperations).map fun reading =>
    ⟨source, world.disk, reading, faults.toVaultFaults⟩

def installation : SourceCall → Option (Installation host)
  | .accept _ => none
  | .refresh faults =>
    if world.source.sync.isSome && !world.source.vault.isLocked then
      world.refreshing world.source faults
    else none
  | .lock => none
  | .unlock key faults =>
    match world.source.vault.unlock host.vault world.disk key faults.loadRecord with
    | .error _ => none
    | .ok vault => world.refreshing { world.source with vault } faults
  | .replaceKeys keys persisted faults =>
    match world.source.sync, persisted with
    | some (.commons signingSeed current), .ok () =>
      if host.epochIds current ≠ host.epochIds keys ∨
          host.currentEpoch current ≠ host.currentEpoch keys then
        world.refreshing { world.source with sync := some (.commons signingSeed keys) } faults
      else none
    | _, _ => none
  | .prepare _ _ _ _ => none
  | .author revision id payload arriving authorFault faults =>
    let outcome := world.source.authorSave host world.disk world.store revision id payload
      arriving authorFault faults
    match world.source.sync, outcome.authored with
    | some authority, some _ =>
      let cipher := authority.cipher host world.source.vault
      match outcome.store.projectionOrFault host.sync cipher faults.loadOperations with
      | .error _ => none
      | .ok projection =>
        some ⟨world.source, world.disk, ⟨outcome.store, cipher, projection⟩,
          faults.toVaultFaults⟩
    | _, _ => none

end ResidentWorld

section

variable {host}

theorem projectionOrFault_ok {store : KnotSyncStore} {host : SyncHost} {cipher : KnotSyncCipher}
    {fault : Option KnotSyncError} {projection : KnotDocumentProjection}
    (projected : store.projectionOrFault host cipher fault = .ok projection) :
    store.projectionWithCipher host cipher = .ok projection := by
  cases fault with
  | some error => cases projected
  | none => exact projected

theorem reading_spec {source : VaultSource} {store : KnotSyncStore} {fault : Option KnotSyncError}
    {reading : Reading} (read : source.reading host store fault = some reading) :
    reading.store.projectionWithCipher host.sync reading.cipher = .ok reading.projection ∧
      source.project host store fault = .ok (some reading.projection) ∧
      ∃ authority, source.sync = some authority ∧
        reading.cipher = authority.cipher host source.vault := by
  rw [VaultSource.reading] at read
  split at read
  next authority projection synced projected =>
    cases read
    refine ⟨?_, projected, authority, synced, rfl⟩
    simp only [VaultSource.project, synced] at projected
    split at projected
    next => cases projected
    next projection found =>
      cases projected
      exact projectionOrFault_ok found
  next => cases read

theorem refreshProjection_spec (source : VaultSource) (disk : VaultDisk host.vault)
    (store : KnotSyncStore) (faults : SourceFaults) :
    match source.reading host store faults.loadOperations with
    | some reading => source.refreshProjection host disk store faults =
        source.installProjection host disk reading.projection faults.toVaultFaults
    | none => (source.refreshProjection host disk store faults).source = source ∧
        (source.refreshProjection host disk store faults).disk = disk := by
  cases read : source.reading host store faults.loadOperations with
  | some reading =>
    simp only [VaultSource.refreshProjection, (reading_spec read).2.1]
  | none =>
    rw [VaultSource.reading] at read
    rw [VaultSource.refreshProjection]
    cases projected : source.project host store faults.loadOperations with
    | error error => exact ⟨rfl, rfl⟩
    | ok found =>
      cases found with
      | none => exact ⟨rfl, rfl⟩
      | some projection =>
        cases synced : source.sync with
        | none => simp [VaultSource.project, synced] at projected
        | some authority => simp [synced, projected] at read

structure SaveAuthored (host : SourceHost) (source : VaultSource) (store : KnotSyncStore)
    (id : String) (payload : SaveText) (operation : Operation) (authored : KnotSyncStore)
    (head : Bytes32) (previous : VaultDocument) (authority : VaultSyncAuthority) : Prop where
  headed : source.documentHeads[nativeId id]? = some head
  token : vaultBaseToken host (nativeId id) head = payload.baseToken
  held : (source.vault.index.documents.find? fun document => document.id == nativeId id) =
    some previous
  synced : source.sync = some authority
  authored : store.authorWithCipherAt host.sync authority.signingSeed
    (authority.cipher host source.vault) (.put (previous.withText payload.source))
    .now = .ok (operation, authored)

theorem SaveAuthored.keyed {source : VaultSource} {store authored : KnotSyncStore} {id : String}
    {payload : SaveText} {operation : Operation} {head : Bytes32} {previous : VaultDocument}
    {authority : VaultSyncAuthority} {signingSeed : Bytes32}
    (save : SaveAuthored host source store id payload operation authored head previous authority)
    (personal : source.sync = some (.personal signingSeed)) : source.vault.syncKey ≠ none := by
  have made := save.authored
  rw [save.synced] at personal
  cases personal
  intro locked
  rw [KnotSyncStore.authorWithCipherAt, KnotSyncStore.authorUnderGate] at made
  simp only [bind_eq_ok_iff, VaultSyncAuthority.cipher, sealEvent, mapError_eq_ok_iff,
    KnotVault.syncVault, locked] at made
  obtain ⟨_, _, _, _, _, _, _, _, _, _, _, _, _, sealed, _⟩ := made
  cases sealed

section save

variable (source : VaultSource) (disk : VaultDisk host.vault) (store : KnotSyncStore)
variable (revision : UInt64) (id : String) (payload : SaveText) (arriving : List Operation)
variable (authorFault : Option KnotSyncError) (faults : SourceFaults)

theorem authorSave_cases :
    (∃ result, result ≠ .ok .accepted ∧
      source.authorSave host disk store revision id payload arriving authorFault faults =
        ⟨result, source, disk, store, none⟩) ∨
    ∃ operation authored head previous authority,
      SaveAuthored host source store id payload operation authored head previous authority ∧
      source.authorSave host disk store revision id payload arriving authorFault faults =
        match (authored.acceptAll host.sync arriving).projectionOrFault host.sync
            (authority.cipher host source.vault) faults.loadOperations with
        | .error error =>
          ⟨.error (authority.projectSaveFailure error), source, disk,
            authored.acceptAll host.sync arriving, some operation⟩
        | .ok projection =>
          ⟨(source.installProjection host disk projection faults.toVaultFaults).result.map
              fun _ => .accepted,
            (source.installProjection host disk projection faults.toVaultFaults).source,
            (source.installProjection host disk projection faults.toVaultFaults).disk,
            authored.acceptAll host.sync arriving, some operation⟩ := by
  rw [VaultSource.authorSave]
  cases heads : source.documentHeads[nativeId id]? with
  | none => exact .inl ⟨_, by simp, rfl⟩
  | some head =>
    by_cases token : vaultBaseToken host (nativeId id) head = payload.baseToken
    · simp only [token, ne_eq, not_true_eq_false, if_false]
      cases held : source.vault.index.documents.find? fun document =>
          document.id == nativeId id with
      | none => exact .inl ⟨_, by simp, rfl⟩
      | some previous =>
        cases synced : source.sync with
        | none => exact .inl ⟨_, by simp, rfl⟩
        | some authority =>
          cases made : store.authorOrFault host.sync authority.signingSeed
              (authority.cipher host source.vault)
              (.put (previous.withText payload.source)) authorFault with
          | error error =>
            simp only [made]
            exact .inl ⟨_, by simp, rfl⟩
          | ok pair =>
            obtain ⟨operation, authored⟩ := pair
            refine .inr ⟨operation, authored, head, previous, authority,
              ⟨heads, token, held, synced, ?_⟩, ?_⟩
            · cases authorFault with
              | some fault => simp [KnotSyncStore.authorOrFault] at made
              | none => simpa only [KnotSyncStore.authorOrFault] using made
            · simp only [made] <;> rfl
    · simp only [ne_eq, token, not_false_eq_true, if_true]
      exact .inl ⟨_, by simp, rfl⟩

end save

section step

variable {world : ResidentWorld host} {call : SourceCall} {installation : Installation host}

def SyncKept (world : ResidentWorld host) (call : SourceCall) (sync : Option VaultSyncAuthority) :
    Prop :=
  sync = world.source.sync ∨ ∃ signingSeed current keys persisted faults,
    call = .replaceKeys keys persisted faults ∧
      world.source.sync = some (.commons signingSeed current) ∧
      sync = some (.commons signingSeed keys)

/-- A call that installs a projection leaves what the installation leaves, of a source that holds
the world's vault or unlocked it. -/
structure Installs (world : ResidentWorld host) (call : SourceCall)
    (installation : Installation host) : Prop where
  source : (world.perform call).source = (installation.source.installProjection host
    installation.disk installation.reading.projection installation.faults).source
  disk : (world.perform call).disk = (installation.source.installProjection host
    installation.disk installation.reading.projection installation.faults).disk
  records : installation.disk = world.disk
  projects : installation.reading.store.projectionWithCipher host.sync
    installation.reading.cipher = .ok installation.reading.projection
  reader : ∃ authority, installation.source.sync = some authority ∧
    installation.reading.cipher = authority.cipher host installation.source.vault
  vault : installation.source.vault = world.source.vault ∨
    ∃ key fault, world.source.vault.unlock host.vault world.disk key fault =
      .ok installation.source.vault
  sync : SyncKept world call installation.source.sync
  opened : ∀ signingSeed, installation.source.sync = some (.personal signingSeed) →
    installation.source.vault.isLocked = false ∨ installation.source.vault.syncKey ≠ none

structure Quiet (world : ResidentWorld host) (call : SourceCall) : Prop where
  heads : (world.perform call).source.documentHeads = world.source.documentHeads
  disk : (world.perform call).disk = world.disk
  vault : (world.perform call).source.vault = world.source.vault ∨
    (world.perform call).source.vault = world.source.vault.lock ∨
    ∃ key faults, call = .unlock key faults ∧
      world.source.vault.unlock host.vault world.disk key faults.loadRecord =
        .ok (world.perform call).source.vault
  sync : SyncKept world call (world.perform call).source.sync

theorem refreshing_spec {source : VaultSource} {faults : SourceFaults}
    (found : world.refreshing source faults = some installation) :
    source.refreshProjection host world.disk world.store faults =
        installation.source.installProjection host installation.disk
          installation.reading.projection installation.faults ∧
      installation.source = source ∧ installation.disk = world.disk ∧
      installation.reading.store.projectionWithCipher host.sync installation.reading.cipher =
        .ok installation.reading.projection ∧
      ∃ authority, installation.source.sync = some authority ∧
        installation.reading.cipher = authority.cipher host installation.source.vault := by
  obtain ⟨reading, read, made⟩ := Option.map_eq_some_iff.mp found
  have spec := refreshProjection_spec source world.disk world.store faults
  rw [read] at spec
  cases made
  exact ⟨spec, rfl, rfl, (reading_spec read).1, (reading_spec read).2.2⟩

theorem refreshing_none {source : VaultSource} {faults : SourceFaults}
    (missed : world.refreshing source faults = none) :
    (source.refreshProjection host world.disk world.store faults).source = source ∧
      (source.refreshProjection host world.disk world.store faults).disk = world.disk := by
  have spec := refreshProjection_spec source world.disk world.store faults
  rw [Option.map_eq_none_iff.mp missed] at spec
  exact spec

theorem unlock_unlocks {vault opened : KnotVault} {disk : VaultDisk host.vault} {key : Bytes32}
    {fault : Option String} (opens : vault.unlock host.vault disk key fault = .ok opened) :
    opened.isLocked = false := by
  rw [KnotVault.unlock] at opens
  split at opens
  next unlocked =>
    cases opens
    simpa using unlocked
  next =>
    split at opens
    next => cases opens
    next => cases opens
    next =>
      split at opens
      next => cases opens
      next =>
        cases opens
        rfl

theorem perform_installs (found : world.installation call = some installation) :
    Installs world call installation := by
  cases call with
  | accept operation => cases found
  | lock => cases found
  | prepare grant revision id payload => cases found
  | refresh faults =>
    simp only [ResidentWorld.installation] at found
    split at found
    next opens =>
      obtain ⟨same, from_, records, projects, reader⟩ := refreshing_spec found
      have performed : world.source.refresh host world.disk world.store faults =
          installation.source.installProjection host installation.disk
            installation.reading.projection installation.faults := by
        rw [VaultSource.refresh, if_pos opens, same]
      refine ⟨?_, ?_, records, projects, reader, ?_, ?_, ?_⟩
      · rw [← performed]
        rfl
      · rw [← performed]
        rfl
      · exact .inl (congrArg VaultSource.vault from_)
      · exact .inl (congrArg VaultSource.sync from_)
      · intro _ _
        rw [from_]
        simp only [Bool.and_eq_true, Bool.not_eq_true'] at opens
        exact .inl opens.2
    next => cases found
  | unlock key faults =>
    simp only [ResidentWorld.installation] at found
    split at found
    next => cases found
    next vault opens =>
      obtain ⟨same, from_, records, projects, reader⟩ := refreshing_spec found
      have performed : world.source.unlockVault host world.disk world.store key faults =
          installation.source.installProjection host installation.disk
            installation.reading.projection installation.faults := by
        simp only [VaultSource.unlockVault, opens, same]
      refine ⟨?_, ?_, records, projects, reader, ?_, ?_, ?_⟩
      · rw [← performed]
        rfl
      · rw [← performed]
        rfl
      · rw [from_]
        exact .inr ⟨key, faults.loadRecord, opens⟩
      · rw [from_]
        exact .inl rfl
      · intro _ _
        rw [from_]
        exact .inl (unlock_unlocks opens)
  | replaceKeys keys persisted faults =>
    simp only [ResidentWorld.installation] at found
    split at found
    next signingSeed current synced =>
      split at found
      next changed =>
        obtain ⟨same, from_, records, projects, reader⟩ := refreshing_spec found
        refine ⟨?_, ?_, records, projects, reader, ?_, ?_, ?_⟩
        · simp only [ResidentWorld.perform, VaultSource.replaceCommunalKeys, synced,
            if_pos changed, same]
        · simp only [ResidentWorld.perform, VaultSource.replaceCommunalKeys, synced,
            if_pos changed, same]
        · rw [from_]
          exact .inl rfl
        · rw [from_]
          exact .inr ⟨signingSeed, current, keys, .ok (), faults, rfl, synced, rfl⟩
        · intro _ personal
          rw [from_] at personal
          cases personal
      next => cases found
    next => cases found
  | author revision id payload arriving authorFault faults =>
    simp only [ResidentWorld.installation] at found
    rcases authorSave_cases world.source world.disk world.store revision id payload arriving
        authorFault faults with ⟨result, -, same⟩ |
          ⟨operation, authored, _, _, authority, made, same⟩
    · simp [same] at found
    · rw [same, made.synced] at found
      cases projected : (authored.acceptAll host.sync arriving).projectionOrFault host.sync
          (authority.cipher host world.source.vault) faults.loadOperations with
      | error error => simp [projected] at found
      | ok projection =>
        simp only [projected] at found same
        cases found
        refine ⟨?_, ?_, rfl, projectionOrFault_ok projected, ⟨authority, made.synced, rfl⟩,
          .inl rfl, .inl rfl, fun signingSeed personal => ?_⟩
        · simp only [ResidentWorld.perform, same]
        · simp only [ResidentWorld.perform, same]
        · exact .inr (made.keyed personal)

theorem quiet_of_same (source : (world.perform call).source = world.source)
    (disk : (world.perform call).disk = world.disk) : Quiet world call where
  heads := congrArg VaultSource.documentHeads source
  disk := disk
  vault := .inl (congrArg VaultSource.vault source)
  sync := .inl (congrArg VaultSource.sync source)

theorem perform_quiet (missed : world.installation call = none) : Quiet world call := by
  cases call with
  | accept operation => exact quiet_of_same rfl rfl
  | lock => exact ⟨rfl, rfl, .inr (.inl rfl), .inl rfl⟩
  | prepare grant revision id payload => exact quiet_of_same rfl rfl
  | refresh faults =>
    simp only [ResidentWorld.installation] at missed
    split at missed
    next opens =>
      obtain ⟨source, disk⟩ := refreshing_none missed
      refine quiet_of_same ?_ ?_
      · rw [ResidentWorld.perform, VaultSource.refresh, if_pos opens, source]
      · rw [ResidentWorld.perform, VaultSource.refresh, if_pos opens, disk]
    next shut =>
      refine quiet_of_same ?_ ?_
      · rw [ResidentWorld.perform, VaultSource.refresh, if_neg shut]
      · rw [ResidentWorld.perform, VaultSource.refresh, if_neg shut]
  | unlock key faults =>
    simp only [ResidentWorld.installation] at missed
    split at missed
    next error refused =>
      refine quiet_of_same ?_ ?_
      · simp only [ResidentWorld.perform, VaultSource.unlockVault, refused]
      · simp only [ResidentWorld.perform, VaultSource.unlockVault, refused]
    next vault opens =>
      obtain ⟨source, disk⟩ := refreshing_none missed
      have performed : world.perform (.unlock key faults) =
          { world with source := { world.source with vault } } := by
        simp only [ResidentWorld.perform, VaultSource.unlockVault, opens, source, disk]
      refine ⟨?_, ?_, ?_, ?_⟩
      · rw [performed]
      · rw [performed]
      · rw [performed]
        exact .inr (.inr ⟨key, faults, rfl, opens⟩)
      · rw [performed]
        exact .inl rfl
  | replaceKeys keys persisted faults =>
    simp only [ResidentWorld.installation] at missed
    cases synced : world.source.sync with
    | none =>
      refine quiet_of_same ?_ ?_
      · simp only [ResidentWorld.perform, VaultSource.replaceCommunalKeys, synced]
      · simp only [ResidentWorld.perform, VaultSource.replaceCommunalKeys, synced]
    | some authority =>
      cases authority with
      | personal signingSeed =>
        refine quiet_of_same ?_ ?_
        · simp only [ResidentWorld.perform, VaultSource.replaceCommunalKeys, synced]
        · simp only [ResidentWorld.perform, VaultSource.replaceCommunalKeys, synced]
      | commons signingSeed current =>
        cases persisted with
        | error error =>
          refine quiet_of_same ?_ ?_
          · simp only [ResidentWorld.perform, VaultSource.replaceCommunalKeys, synced]
          · simp only [ResidentWorld.perform, VaultSource.replaceCommunalKeys, synced]
        | ok _ =>
          have performed : world.perform (.replaceKeys keys (.ok ()) faults) =
              { world with source := { world.source with
                  sync := some (.commons signingSeed keys) } } := by
            simp only [synced] at missed
            simp only [ResidentWorld.perform, VaultSource.replaceCommunalKeys, synced]
            split at missed
            next changed =>
              obtain ⟨source, disk⟩ := refreshing_none missed
              simp only [if_pos changed, source, disk]
            next kept => simp only [if_neg kept]
          refine ⟨?_, ?_, ?_, ?_⟩
          · rw [performed]
          · rw [performed]
          · rw [performed]
            exact .inl rfl
          · rw [performed]
            exact .inr ⟨signingSeed, current, keys, .ok (), faults, rfl, synced, rfl⟩
  | author revision id payload arriving authorFault faults =>
    simp only [ResidentWorld.installation] at missed
    rcases authorSave_cases world.source world.disk world.store revision id payload arriving
        authorFault faults with ⟨result, -, same⟩ |
          ⟨operation, authored, _, _, authority, made, same⟩
    · refine quiet_of_same ?_ ?_
      · simp only [ResidentWorld.perform, same]
      · simp only [ResidentWorld.perform, same]
    · rw [same, made.synced] at missed
      cases projected : (authored.acceptAll host.sync arriving).projectionOrFault host.sync
          (authority.cipher host world.source.vault) faults.loadOperations with
      | error error =>
        simp only [projected] at same
        refine quiet_of_same ?_ ?_
        · simp only [ResidentWorld.perform, same]
        · simp only [ResidentWorld.perform, same]
      | ok projection => simp [projected] at missed

end step

end

end KnotEditor
