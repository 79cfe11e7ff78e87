import KnotEditor.StartupMigration

/-! What a row of startups keeps of a sealed vault. The migration asks only whether the projection
shows anything, so the vault's documents live through it where it authors all of them or none, and
where the history mentioned all of them or none. -/

namespace KnotEditor

open Fallible

section

variable (host : SourceHost) (persona : ByteArray) (keys : PersonalVaultKeys)

/-- The history mentions every document of the vault if it shows anything, and otherwise none. -/
def Unmixed (records : List StoredKnotOperation) (documents : List VaultDocument) : Prop :=
  ∀ projection, (keys.store host persona [] records).projectionWithCipher host.sync
      (keys.cipher host) = .ok projection →
    ∀ document ∈ documents, Mentioned host.sync (keys.cipher host) records document.id ↔
      projection.showsNothing = false

namespace StartupWorld

variable {host}

/-- A migration of the vault as it is now would not break off between two documents. -/
def UnbrokenBy (world : StartupWorld host) (startup : Startup) : Prop :=
  ∀ index projection, loadIndex host.vault keys.vaultKey world.disk none = .ok index →
    (keys.store host persona startup.admitted world.records).projectionWithCipher host.sync
      (keys.cipher host) = .ok projection →
    projection.showsNothing = true →
    Unbroken host keys startup.opening.author
      (keys.store host persona startup.admitted world.records) index.documents

/-- Documents that were never mentioned are readable once a startup succeeds, and no startup has
authored a deleted one. -/
structure Keeps (records : List StoredKnotOperation) (documents : List VaultDocument)
    (world : StartupWorld host) : Prop where
  readable : ∀ source store, world.resident = some (source, store) →
    ∀ document ∈ documents, ¬ Mentioned host.sync (keys.cipher host) records document.id →
      source.vault.body document.id = some document.body ∧
        ∃ projection, store.projectionWithCipher host.sync (keys.cipher host) = .ok projection ∧
          document ∈ projection.documents
  buried : ∀ authoring ∈ world.authored,
    ¬ authoring.store.Deleted host.sync (keys.cipher host) authoring.document.id

end StartupWorld

end

section opening

variable {host : SourceHost} {persona : ByteArray} {keys : PersonalVaultKeys}
variable {world : StartupWorld host} {startup : Startup}

/-- What `open` does once the vault is loaded and the store is projected. -/
structure Inspects (persona : ByteArray) (keys : PersonalVaultKeys) (world : StartupWorld host)
    (startup : Startup) (index : VaultIndex) (projection : KnotDocumentProjection)
    (migrated : VaultMigration) : Prop where
  loads : loadIndex host.vault keys.vaultKey world.disk none = .ok index
  projects : (keys.store host persona startup.admitted world.records).projectionWithCipher
    host.sync (keys.cipher host) = .ok projection
  migrates : migrated = if projection.showsNothing then
      migrateDocuments host keys.signingSeed (keys.cipher host) startup.opening.author
        (keys.store host persona startup.admitted world.records) index.documents
    else ⟨.ok (), keys.store host persona startup.admitted world.records, []⟩
  opens : world.opening persona keys startup =
    ⟨migrated.result.map fun _ => ⟨keys.vault host index, migrated.store, keys.signingSeed⟩,
      migrated.store, migrated.authored⟩

theorem unlocked_cipher (index : VaultIndex) (store : KnotSyncStore) (signingSeed : Bytes32) :
    StartupUnlockedPersonalVault.cipher host ⟨keys.vault host index, store, signingSeed⟩ =
      keys.cipher host := rfl

theorem opening_cases (persona : ByteArray) (keys : PersonalVaultKeys)
    (world : StartupWorld host) (startup : Startup) :
    (∃ error, world.opening persona keys startup =
      ⟨.error error, keys.store host persona startup.admitted world.records, []⟩) ∨
    ∃ index projection migrated,
      Inspects persona keys world startup index projection migrated := by
  simp only [StartupWorld.opening, StartupUnlockedPersonalVault.open]
  split
  next error _ => exact .inl ⟨_, rfl⟩
  next directory =>
    split
    next error _ => exact .inl ⟨error, rfl⟩
    next vault opened =>
      obtain ⟨index, loads, rfl⟩ : ∃ index,
          loadIndex host.vault keys.vaultKey world.disk none = .ok index ∧
            vault = keys.vault host index := by
        rw [KnotVault.open] at opened
        split at opened
        next => cases opened
        next index loaded =>
          cases opened
          exact ⟨index, loadIndex_fault _ _ _ _ loaded, rfl⟩
      split
      next error _ => exact .inl ⟨_, rfl⟩
      next stored =>
        cases projected : (keys.store host persona startup.admitted
            world.records).projectionOrFault host.sync (keys.cipher host)
              startup.opening.inspect with
        | error error =>
          refine .inl ⟨s!"could not inspect Knot persona sync store: {error.text}", ?_⟩
          simp only [StartupUnlockedPersonalVault.migrateUnsyncedVault, unlocked_cipher,
            projected]
          rfl
        | ok projection =>
          refine .inr ⟨index, projection, _, loads, projectionOrFault_ok projected, rfl, ?_⟩
          simp only [StartupWorld.opening, StartupUnlockedPersonalVault.open, directory, opened,
            stored, StartupUnlockedPersonalVault.migrateUnsyncedVault, unlocked_cipher,
            projected]
          cases projection.showsNothing <;> rfl

end opening

section resident

variable {host : SourceHost} {persona : ByteArray} {keys : PersonalVaultKeys}
variable {index : VaultIndex} {store : KnotSyncStore} {disk : VaultDisk host.vault}
variable {faults : ResidentFaults}

theorem intoResidentSource_cases (keys : PersonalVaultKeys) (index : VaultIndex)
    (store : KnotSyncStore) (disk : VaultDisk host.vault) (faults : ResidentFaults) :
    let outcome := StartupUnlockedPersonalVault.intoResidentSource host
      ⟨keys.vault host index, store, keys.signingSeed⟩ disk faults
    ((∃ error, outcome.result = .error error) ∧ outcome.disk = disk) ∨
      ∃ projection, store.projectionWithCipher host.sync (keys.cipher host) = .ok projection ∧
        outcome = (VaultSource.unread (keys.vault host index)
          (.personal keys.signingSeed)).installProjection host disk projection
            faults.toVaultFaults := by
  simp only [StartupUnlockedPersonalVault.intoResidentSource]
  split
  next error _ => exact .inl ⟨⟨_, rfl⟩, rfl⟩
  next =>
    simp only [VaultSource.open, VaultSource.refreshProjection, VaultSource.project,
      VaultSource.unread, VaultSyncAuthority.cipher]
    cases projected : store.projectionOrFault host.sync
        (.personal ((keys.vault host index).syncVault host)) faults.loadOperations with
    | error error => exact .inl ⟨⟨_, rfl⟩, rfl⟩
    | ok projection => exact .inr ⟨projection, projectionOrFault_ok projected, rfl⟩

theorem body_of_listed {vault : KnotVault} {document : VaultDocument}
    (unlocked : vault.isLocked = false) (listed : document ∈ vault.index.documents)
    (only : ∀ other ∈ vault.index.documents, other.id = document.id → other = document) :
    vault.body document.id = some document.body := by
  rw [KnotVault.body, unlocked, if_neg Bool.false_ne_true]
  cases found : vault.index.documents.find? fun other => other.id == document.id with
  | none =>
    have absent := List.find?_eq_none.mp found document listed
    exact absurd (beq_self_eq_true _) absent
  | some other =>
    have same := only other (List.mem_of_find?_eq_some found)
      (by simpa using List.find?_some found)
    rw [same, Option.map_some]

theorem readable_of_resident {order : List Operation} {pending : List PendingCausalOperation}
    {operation : Operation} {document : VaultDocument}
    (closed : store.closedOperations host.sync = .ok (order, pending))
    (alone : order.filter (writesTo (readableEvents host.sync (keys.cipher host)) document.id) =
      [operation])
    (wrote : written (readableEvents host.sync (keys.cipher host)) operation =
      some (document.id, some document))
    (started : (StartupUnlockedPersonalVault.intoResidentSource host
      ⟨keys.vault host index, store, keys.signingSeed⟩ disk faults).result = .ok ()) :
    (StartupUnlockedPersonalVault.intoResidentSource host
        ⟨keys.vault host index, store, keys.signingSeed⟩ disk faults).source.vault.body
          document.id = some document.body ∧
      ∃ projection, store.projectionWithCipher host.sync (keys.cipher host) = .ok projection ∧
        document ∈ projection.documents := by
  rcases intoResidentSource_cases keys index store disk faults with
    ⟨⟨error, failed⟩, _⟩ | ⟨projection, projected, installs⟩
  · rw [failed] at started
    cases started
  · obtain ⟨shown, only⟩ := projection_shows_lone_write closed projected alone wrote
    refine ⟨?_, projection, projected, shown⟩
    rw [installs] at started ⊢
    simp only [VaultSource.installProjection, VaultSource.unread] at started ⊢
    cases replaced : ((keys.vault host index).replaceProjection host.vault disk
        projection.documents faults.toVaultFaults).result with
    | error error =>
      rw [replaced] at started
      cases started
    | ok changed =>
      obtain ⟨_, documents⟩ := replaceProjection_ok replaced
      refine body_of_listed ?_ ?_ ?_
      · rw [KnotVault.isLocked, replaceProjection_store]
        rfl
      · rw [documents, sortDocuments, List.mem_mergeSort]
        exact shown
      · intro other member
        rw [documents, sortDocuments, List.mem_mergeSort] at member
        exact only other member

end resident

section perform

variable {host : SourceHost} {persona : ByteArray} {keys : PersonalVaultKeys}
variable {world : StartupWorld host} {startup : Startup}

theorem perform_records (persona : ByteArray) (keys : PersonalVaultKeys)
    (world : StartupWorld host) (startup : Startup) :
    (world.perform persona keys startup).records =
      (world.opening persona keys startup).store.records := by
  rw [StartupWorld.perform]
  split <;> rfl

theorem perform_authored (persona : ByteArray) (keys : PersonalVaultKeys)
    (world : StartupWorld host) (startup : Startup) :
    (world.perform persona keys startup).authored =
      world.authored ++ (world.opening persona keys startup).authored := by
  rw [StartupWorld.perform]
  split <;> rfl

theorem perform_failed {error : String}
    (failed : (world.opening persona keys startup).result = .error error) :
    (world.perform persona keys startup).disk = world.disk ∧
      (world.perform persona keys startup).resident = none := by
  rw [StartupWorld.perform, failed]
  exact ⟨rfl, rfl⟩

theorem perform_opened {unlocked : StartupUnlockedPersonalVault}
    (opened : (world.opening persona keys startup).result = .ok unlocked) :
    ((world.perform persona keys startup).disk = world.disk ∧
      (world.perform persona keys startup).resident = none) ∨
    ∃ faults, startup.resident = some faults ∧
      (world.perform persona keys startup).disk =
        (unlocked.intoResidentSource host world.disk faults).disk ∧
      ∀ source store, (world.perform persona keys startup).resident = some (source, store) →
        (unlocked.intoResidentSource host world.disk faults).result = .ok () ∧
          source = (unlocked.intoResidentSource host world.disk faults).source ∧
          store = (world.opening persona keys startup).store := by
  cases resident : startup.resident with
  | none =>
    refine .inl ?_
    rw [StartupWorld.perform, opened, resident]
    exact ⟨rfl, rfl⟩
  | some faults =>
    refine .inr ⟨faults, rfl, ?_⟩
    rw [StartupWorld.perform, opened, resident]
    refine ⟨rfl, fun source store shown => ?_⟩
    obtain ⟨_, started, made⟩ := Option.map_eq_some_iff.mp shown
    cases made
    exact ⟨toOption_eq_some_iff.mp started, rfl, rfl⟩

end perform

section phases

variable {host : SourceHost}

section

variable (persona : ByteArray) (keys : PersonalVaultKeys) (disk : VaultDisk host.vault)
variable (records : List StoredKnotOperation) (documents : List VaultDocument)

structure Recorded (world : StartupWorld host) (order : List Operation) : Prop where
  closed : (keys.store host persona [] world.records).closedOperations host.sync =
    .ok (order, [])
  writes : ∀ document ∈ documents, ∃ operation,
    order.filter (writesTo (readableEvents host.sync (keys.cipher host)) document.id) =
        [operation] ∧
      written (readableEvents host.sync (keys.cipher host)) operation =
        some (document.id, some document)

inductive StartupPhase (world : StartupWorld host) : Prop
  /-- No migration has come to its end. -/
  | untouched (vault : world.disk = disk) (history : world.records = records)
      (unserved : world.resident = none) (silent : world.authored = [])
  /-- The history has no need of a migration. -/
  | covered (history : world.records = records) (silent : world.authored = [])
      (mentioned : ∀ document ∈ documents,
        Mentioned host.sync (keys.cipher host) records document.id)
      (idle : (∀ projection, (keys.store host persona [] records).projectionWithCipher host.sync
          (keys.cipher host) = .ok projection → projection.showsNothing = false) ∨
        world.disk = disk ∧ documents = [])
  | migrated (order : List Operation) (recorded : Recorded persona keys documents world order)
      (some : documents ≠ []) (keeps : world.Keeps keys records documents)

end

variable {persona : ByteArray} {keys : PersonalVaultKeys} {disk : VaultDisk host.vault}
variable {records : List StoredKnotOperation} {documents : List VaultDocument}
variable {world : StartupWorld host} {startup : Startup} {order : List Operation}

theorem StartupPhase.keeps (phase : StartupPhase persona keys disk records documents world) :
    world.Keeps keys records documents := by
  cases phase with
  | untouched _ _ unserved silent =>
    refine ⟨fun source store served => ?_, fun authoring member => ?_⟩
    · rw [unserved] at served
      cases served
    · rw [silent] at member
      cases member
  | covered _ silent mentioned _ =>
    refine ⟨fun _ _ _ document member unmentioned => ?_, fun authoring member => ?_⟩
    · exact absurd (mentioned document member) unmentioned
    · rw [silent] at member
      cases member
  | migrated _ _ _ keeps => exact keeps

theorem Recorded.keeps {next : StartupWorld host}
    (recorded : Recorded persona keys documents next order)
    (buried : ∀ authoring ∈ next.authored,
      ¬ authoring.store.Deleted host.sync (keys.cipher host) authoring.document.id)
    (served : ∀ source store, next.resident = some (source, store) → ∃ index faults,
      (StartupUnlockedPersonalVault.intoResidentSource host
        ⟨keys.vault host index, store, keys.signingSeed⟩ world.disk faults).result = .ok () ∧
      source = (StartupUnlockedPersonalVault.intoResidentSource host
        ⟨keys.vault host index, store, keys.signingSeed⟩ world.disk faults).source ∧
      store.records = next.records) :
    next.Keeps keys records documents := by
  refine ⟨fun source store resident document member _ => ?_, buried⟩
  obtain ⟨index, faults, started, rfl, same⟩ := served source store resident
  obtain ⟨operation, alone, wrote⟩ := recorded.writes document member
  have closed : store.closedOperations host.sync = .ok (order, []) := by
    rw [KnotSyncStore.closedOperations, KnotSyncStore.entries, same]
    exact recorded.closed
  exact readable_of_resident closed alone wrote started

theorem closed_of_nothing {store : KnotSyncStore} {projection : KnotDocumentProjection}
    (projected : store.projectionWithCipher host.sync (keys.cipher host) = .ok projection)
    (nothing : projection.showsNothing = true) :
    ∃ order, store.closedOperations host.sync = .ok (order, []) := by
  obtain ⟨order, pending, closed, same⟩ := KnotSyncStore.closed_of_projection projected
  simp only [KnotDocumentProjection.showsNothing, Bool.and_eq_true, List.isEmpty_iff] at nothing
  rw [← same, nothing.2] at closed
  exact ⟨order, closed⟩

theorem Inspects.serves {index : VaultIndex} {projection : KnotDocumentProjection}
    {migrated : VaultMigration}
    (inspects : Inspects persona keys world startup index projection migrated) :
    ∀ source store, (world.perform persona keys startup).resident = some (source, store) →
      ∃ index faults,
        (StartupUnlockedPersonalVault.intoResidentSource host
          ⟨keys.vault host index, store, keys.signingSeed⟩ world.disk faults).result = .ok () ∧
        source = (StartupUnlockedPersonalVault.intoResidentSource host
          ⟨keys.vault host index, store, keys.signingSeed⟩ world.disk faults).source ∧
        store.records = (world.perform persona keys startup).records := by
  intro source store served
  have opens := inspects.opens
  cases result : migrated.result with
  | error error =>
    rw [result] at opens
    have failed : (world.opening persona keys startup).result = .error error := by
      rw [opens]
      rfl
    rw [(perform_failed failed).2] at served
    cases served
  | ok done =>
    rw [result] at opens
    have opened : (world.opening persona keys startup).result =
        .ok ⟨keys.vault host index, migrated.store, keys.signingSeed⟩ := by
      rw [opens]
      rfl
    rcases perform_opened opened with ⟨_, unserved⟩ | ⟨faults, _, _, serves⟩
    · rw [unserved] at served
      cases served
    · obtain ⟨started, rfl, rfl⟩ := serves source store served
      rw [perform_records, opens] at *
      exact ⟨index, faults, started, rfl, rfl⟩

theorem intoResidentSource_disk {index : VaultIndex} {store : KnotSyncStore}
    {projection : KnotDocumentProjection} {faults : ResidentFaults}
    (projected : store.projectionWithCipher host.sync (keys.cipher host) = .ok projection)
    (nothing : projection.showsNothing = true) (empty : index.documents = []) :
    (StartupUnlockedPersonalVault.intoResidentSource host
      ⟨keys.vault host index, store, keys.signingSeed⟩ disk faults).disk = disk := by
  rcases intoResidentSource_cases keys index store disk faults with
    ⟨_, kept⟩ | ⟨other, others, installs⟩
  · exact kept
  · rw [projected] at others
    cases others
    simp only [KnotDocumentProjection.showsNothing, Bool.and_eq_true, List.isEmpty_iff] at nothing
    rw [installs]
    simp only [VaultSource.installProjection, VaultSource.unread, nothing.1.1,
      KnotVault.replaceProjection, PersonalVaultKeys.vault, Option.isNone_some,
      Bool.false_eq_true, if_false, empty, sortDocuments, List.mergeSort_nil, if_true]

theorem covered_step {index : VaultIndex}
    (sealed : loadIndex host.vault keys.vaultKey disk none = .ok index)
    (history : world.records = records) (silent : world.authored = [])
    (mentioned : ∀ document ∈ index.documents,
      Mentioned host.sync (keys.cipher host) records document.id)
    (idle : (∀ projection, (keys.store host persona [] records).projectionWithCipher host.sync
        (keys.cipher host) = .ok projection → projection.showsNothing = false) ∨
      world.disk = disk ∧ index.documents = []) :
    StartupPhase persona keys disk records index.documents
      (world.perform persona keys startup) := by
  rcases opening_cases persona keys world startup with
    ⟨error, failed⟩ | ⟨found, projection, migrated, inspects⟩
  · have result := congrArg StartupOpening.result failed
    obtain ⟨kept, _⟩ := perform_failed result
    refine .covered ?_ ?_ mentioned ?_
    · rw [perform_records, failed]
      exact history
    · rw [perform_authored, failed, silent]
      rfl
    · rw [kept]
      exact idle
  · have projects : (keys.store host persona [] records).projectionWithCipher host.sync
        (keys.cipher host) = .ok projection := by
      rw [← history]
      exact inspects.projects
    have same : migrated =
        ⟨.ok (), keys.store host persona startup.admitted world.records, []⟩ := by
      rw [inspects.migrates]
      cases nothing : projection.showsNothing with
      | false => rfl
      | true =>
        rcases idle with shows | ⟨vault, empty⟩
        · rw [shows projection projects] at nothing
          cases nothing
        · have loads := inspects.loads
          rw [vault, sealed] at loads
          cases loads
          rw [if_pos rfl, empty]
          rfl
    have opens := inspects.opens
    rw [same] at opens
    refine .covered ?_ ?_ mentioned ?_
    · rw [perform_records, opens]
      exact history
    · rw [perform_authored, opens, silent]
      rfl
    · rcases idle with shows | ⟨vault, empty⟩
      · exact .inl shows
      · cases nothing : projection.showsNothing with
        | false =>
          refine .inl fun other others => ?_
          rw [projects] at others
          cases others
          exact nothing
        | true =>
          refine .inr ⟨?_, empty⟩
          have result := congrArg StartupOpening.result opens
          rcases perform_opened result with ⟨kept, _⟩ | ⟨faults, _, kept, _⟩
          · exact kept.trans vault
          · have loads := inspects.loads
            rw [vault, sealed] at loads
            cases loads
            rw [kept, vault]
            exact intoResidentSource_disk inspects.projects nothing empty

theorem migrated_step (recorded : Recorded persona keys documents world order)
    (some : documents ≠ []) (keeps : world.Keeps keys records documents) :
    StartupPhase persona keys disk records documents (world.perform persona keys startup) := by
  have unchanged (same : (world.opening persona keys startup).store.records = world.records) :
      Recorded persona keys documents (world.perform persona keys startup) order := by
    refine ⟨?_, recorded.writes⟩
    rw [perform_records, same]
    exact recorded.closed
  have kept (none_ : (world.opening persona keys startup).authored = []) :
      ∀ authoring ∈ (world.perform persona keys startup).authored,
        ¬ authoring.store.Deleted host.sync (keys.cipher host) authoring.document.id := by
    rw [perform_authored, none_, List.append_nil]
    exact keeps.buried
  rcases opening_cases persona keys world startup with
    ⟨error, failed⟩ | ⟨index, projection, migrated, inspects⟩
  · have next := unchanged (by rw [failed]; rfl)
    have result := congrArg StartupOpening.result failed
    refine .migrated order next some ⟨fun source store served => ?_, kept (by rw [failed])⟩
    rw [(perform_failed result).2] at served
    cases served
  · obtain ⟨document, member⟩ := List.exists_mem_of_ne_nil _ some
    obtain ⟨operation, alone, wrote⟩ := recorded.writes document member
    have shown := (projection_shows_lone_write recorded.closed inspects.projects alone wrote).1
    have shows : projection.showsNothing = false := by
      cases nothing : projection.showsNothing with
      | false => rfl
      | true =>
        simp only [KnotDocumentProjection.showsNothing, Bool.and_eq_true, List.isEmpty_iff]
          at nothing
        rw [nothing.1.1] at shown
        cases shown
    have opens := inspects.opens
    rw [inspects.migrates, shows] at opens
    have next := unchanged (by rw [opens]; rfl)
    exact .migrated order next some
      (next.keeps (kept (by rw [opens]; rfl)) inspects.serves)

theorem untouched_step {index : VaultIndex}
    (opens : ∀ document ∈ index.documents,
      OpensSealed host.sync (keys.cipher host) (.put document))
    (closes : ClosesAuthored host.sync (keys.cipher host) keys.signingSeed)
    (distinct : (index.documents.map VaultDocument.id).Nodup)
    (unmixed : Unmixed host persona keys records index.documents)
    (sealed : loadIndex host.vault keys.vaultKey disk none = .ok index)
    (vault : world.disk = disk) (history : world.records = records)
    (silent : world.authored = [])
    (unbroken : world.UnbrokenBy persona keys startup) :
    StartupPhase persona keys disk records index.documents
      (world.perform persona keys startup) := by
  rcases opening_cases persona keys world startup with
    ⟨error, failed⟩ | ⟨found, projection, migrated, inspects⟩
  · have result := congrArg StartupOpening.result failed
    obtain ⟨kept, none_⟩ := perform_failed result
    refine .untouched (kept.trans vault) ?_ none_ ?_
    · rw [perform_records, failed]
      exact history
    · rw [perform_authored, failed, silent]
      rfl
  · have loads := inspects.loads
    rw [vault, sealed] at loads
    cases loads
    have projects : (keys.store host persona [] records).projectionWithCipher host.sync
        (keys.cipher host) = .ok projection := by
      rw [← history]
      exact inspects.projects
    have mentions := unmixed projection projects
    cases nothing : projection.showsNothing with
    | false =>
      refine covered_step sealed history silent ?_ (.inl fun other others => ?_)
      · exact fun document member => (mentions document member).mpr nothing
      · rw [projects] at others
        cases others
        exact nothing
    | true =>
      by_cases empty : index.documents = []
      · refine covered_step sealed history silent ?_ (.inr ⟨vault, empty⟩)
        rw [empty]
        exact List.forall_mem_nil _
      · have whole := unbroken index projection (by rw [vault]; exact sealed) inspects.projects
          nothing
        have opened := inspects.opens
        have migrates := inspects.migrates
        rw [nothing, if_pos rfl] at migrates
        rcases whole.done_or_untouched with done | ⟨error, broke, kept, none_⟩
        · obtain ⟨order, closed⟩ := closed_of_nothing inspects.projects nothing
          obtain ⟨policy, buried, extended, joined, adds⟩ := migrateDocuments_spec opens closes
            distinct closed (fun document member => unwritten_of_not_mentioned closed (by
              rw [history]
              intro mentioned
              have shows := (mentions document member).mp mentioned
              rw [nothing] at shows
              cases shows)) done
          rw [← migrates] at policy buried joined
          have next : Recorded persona keys index.documents
              (world.perform persona keys startup) extended := by
            refine ⟨?_, adds.writes⟩
            rw [perform_records, opened]
            exact joined
          refine .migrated extended next empty (next.keeps ?_ inspects.serves)
          rw [perform_authored, opened, silent, List.nil_append]
          exact buried
        · rw [← migrates] at broke kept none_
          have failed : (world.opening persona keys startup).result = .error error := by
            rw [opened, broke]
            rfl
          obtain ⟨still, unserved⟩ := perform_failed failed
          refine .untouched (still.trans vault) ?_ unserved ?_
          · rw [perform_records, opened, kept]
            exact history
          · rw [perform_authored, opened, none_, silent]
            rfl

/-- However many startups fail or stop first, one that succeeds still serves every document that
was never mentioned, and none has authored a deleted one. -/
theorem startup_keeps_documents (persona : ByteArray) (keys : PersonalVaultKeys)
    (disk : VaultDisk host.vault) (records : List StoredKnotOperation) (index : VaultIndex)
    (opens : ∀ document ∈ index.documents,
      OpensSealed host.sync (keys.cipher host) (.put document))
    (closes : ClosesAuthored host.sync (keys.cipher host) keys.signingSeed)
    (sealed : loadIndex host.vault keys.vaultKey disk none = .ok index)
    (distinct : (index.documents.map VaultDocument.id).Nodup)
    (unmixed : Unmixed host persona keys records index.documents) (startups : List Startup)
    (unbroken : Run.Along (StartupWorld.perform persona keys)
      (StartupWorld.UnbrokenBy persona keys) (StartupWorld.before disk records) startups) :
    (startups.foldl (StartupWorld.perform persona keys) (StartupWorld.before disk records)).Keeps
      keys records index.documents := by
  have phase : StartupPhase persona keys disk records index.documents
      (startups.foldl (StartupWorld.perform persona keys) (.before disk records)) := by
    refine Run.invariant_run ?_ startups _ (.untouched rfl rfl rfl rfl) unbroken
    intro world startup phase allowed
    cases phase with
    | untouched vault history unserved silent =>
      exact untouched_step opens closes distinct unmixed sealed vault history silent allowed
    | covered history silent mentioned idle =>
      exact covered_step sealed history silent mentioned idle
    | migrated order recorded some keeps => exact migrated_step recorded some keeps
  exact phase.keeps

end phases

def startupKeys : PersonalVaultKeys :=
  { vaultKey := .filled 7, signingSeed := .filled 10, legacyWriter := .filled 20 }

def startupHost : SourceHost := .sample .byHash [.put draftNote, .put (.sample "river")]

def unsyncedIndex (documents : List VaultDocument) : VaultIndex :=
  { version := Vault.indexVersion, revision := 1, documents }

def unsyncedDisk (documents : List VaultDocument) : VaultDisk startupHost.vault :=
  { index := some (.filled 7, unsyncedIndex documents), derivedCaches := [] }

def stoppedStartups (stop : VaultDocument) : List Startup :=
  [⟨[], { author := fun document => if document = stop then some (.process "stopped") else none },
      none⟩,
    ⟨[], {}, some {}⟩]

def restarted (documents : List VaultDocument) (stop : VaultDocument) : StartupWorld startupHost :=
  (stoppedStartups stop).foldl (StartupWorld.perform .empty startupKeys)
    (.before (unsyncedDisk documents) [])

theorem restarted_loses_river :
    ((restarted [draftNote, .sample "river"] (.sample "river")).resident.map fun served =>
      served.1.vault.body "river") = some none := by
  decide +kernel

/-- A process that stops between two documents of its migration leaves the second one to be
replaced by a projection that never had it. -/
theorem stopped_migration_loses_a_document :
    (restarted [draftNote, .sample "river"] (.sample "river")).resident.isSome = true ∧
      ¬ (restarted [draftNote, .sample "river"] (.sample "river")).Keeps startupKeys []
        [draftNote, .sample "river"] := by
  obtain ⟨⟨source, store⟩, served, unread⟩ := Option.map_eq_some_iff.mp restarted_loses_river
  refine ⟨by rw [served]; rfl, fun keeps => ?_⟩
  have unmentioned : ¬ Mentioned startupHost.sync (startupKeys.cipher startupHost) [] "river" := by
    rintro ⟨record, member, _⟩
    cases member
  obtain ⟨held, _⟩ := keeps.readable source store served (.sample "river") (by simp) unmentioned
  rw [show source.vault.body (VaultDocument.sample "river").id = none from unread] at held
  cases held

theorem draftNote_opens :
    OpensSealed startupHost.sync (startupKeys.cipher startupHost) (.put draftNote) where
  json := by
    rintro bytes written
    cases written
    decide
  personal := by
    rintro vault same aad plaintext ciphertext hidden
    cases same
    cases hidden
    rfl
  commons := by intros; contradiction
  envelope := by intros; contradiction
  header := fun _ _ _ _ _ => ⟨rfl, rfl, rfl⟩

theorem startupHost_closes : ClosesAuthored startupHost.sync (startupKeys.cipher startupHost)
    startupKeys.signingSeed := by
  intro store authored document operation order closed made
  rw [KnotSyncStore.closedOperations_range fun _ => rfl] at closed
  cases closed
  rw [KnotSyncStore.authorWithCipherAt, KnotSyncStore.authorUnderGate] at made
  simp only [bind_eq_ok_iff, mapError_eq_ok_iff] at made
  obtain ⟨_, _, _, _, _, _, _, _, _, _, _, _, _, _, accepted, kept, done⟩ := made
  cases done
  simp only [KnotSyncStore.acceptUnderGate, bind_eq_ok_iff, mapError_eq_ok_iff] at kept
  obtain ⟨_, _, records, stored, done⟩ := kept
  cases stored
  cases done
  refine ⟨_, KnotSyncStore.closedOperations_range (fun _ => rfl) _, ?_⟩
  rw [List.map_append]
  exact List.perm_append_singleton _ _

theorem unsynced_shows_nothing :
    (((startupKeys.store startupHost .empty [] []).projectionWithCipher startupHost.sync
      (startupKeys.cipher startupHost)).toOption.map KnotDocumentProjection.showsNothing) =
        some true := by
  decide

theorem draftNote_unmixed : Unmixed startupHost .empty startupKeys [] [draftNote] := by
  intro projection projects document member
  have nothing := unsynced_shows_nothing
  rw [projects] at nothing
  rw [Option.some.inj nothing]
  refine iff_of_false ?_ (by decide)
  rintro ⟨record, inside, _⟩
  cases inside

theorem unbrokenBy_of_single {world : StartupWorld startupHost} {startup : Startup}
    (held : world.disk = unsyncedDisk [draftNote]) :
    world.UnbrokenBy .empty startupKeys startup := by
  intro index projection loads _ _ front document back split some
  rw [held] at loads
  have single : index.documents = [draftNote] := by
    cases loads
    rfl
  rw [single] at split
  cases front with
  | nil => exact absurd rfl some
  | cons first rest => cases rest <;> cases split

theorem startup_keeps_documents_restarted :
    (restarted [draftNote] draftNote).resident.isSome = true ∧
      (restarted [draftNote] draftNote).Keeps startupKeys [] [draftNote] := by
  refine ⟨by decide +kernel, ?_⟩
  refine @startup_keeps_documents startupHost .empty startupKeys (unsyncedDisk [draftNote]) []
    (unsyncedIndex [draftNote]) ?_ startupHost_closes rfl (by decide) draftNote_unmixed
    (stoppedStartups draftNote) ?_
  · intro document member
    cases List.mem_singleton.mp member
    exact draftNote_opens
  · exact ⟨unbrokenBy_of_single rfl, unbrokenBy_of_single rfl, trivial⟩

end KnotEditor
