import KnotEditor.Vault
import KnotEditor.Library.Run

/-! When the vault's memory and its sealed index agree: exactly in the runs where no call changes
the index in memory and then fails to save it. -/

namespace KnotEditor

variable {host : VaultHost}

def SealingOpens (host : VaultHost) : Prop :=
  ∀ key index, host.unsealRecord key (host.sealRecord key index) = .ok index

/-- The sealed index, read as `open` reads it, is the one in memory. -/
def DiskAgrees (host : VaultHost) (vault : KnotVault) (disk : VaultDisk host) : Prop :=
  ∀ key, vault.store = some key → loadIndex host key disk none = .ok vault.index

structure AgreeingOutcome {α : Type} (vault : KnotVault) (outcome : KnotVault.Outcome host α) :
    Prop where
  refused : ∀ error, outcome.result = .error error →
    outcome.vault.index.documents = vault.index.documents ∧
      outcome.vault.index.revision = vault.index.revision
  saved : ∀ value, outcome.result = .ok value → DiskAgrees host outcome.vault outcome.disk

def AgreeingCall (world : VaultWorld host) : VaultCall → Prop
  | .put document faults =>
    AgreeingOutcome world.vault (world.vault.put host world.disk document faults)
  | .replaceProjection documents faults =>
    AgreeingOutcome world.vault
      (world.vault.replaceProjection host world.disk documents faults)

def FailsAfterChange (world : VaultWorld host) : VaultCall → Prop
  | .put document faults =>
    faults.saveRecord.isSome = true ∧
      (sortDocuments (upsertDocument document world.vault.index.documents) ≠
          world.vault.index.documents ∨
        nextRevision world.vault.index.revision ≠ world.vault.index.revision)
  | .replaceProjection documents faults =>
    faults.saveRecord.isSome = true ∧ world.vault.index.documents ≠ sortDocuments documents ∧
      (world.vault.deleteDerivedCaches host faults world.disk
        (world.vault.removedIds (sortDocuments documents))).1 = .ok ()

structure VaultWorld.Agrees (world : VaultWorld host) : Prop where
  unlocked : ∃ key, world.vault.store = some key
  version : world.vault.index.version = Vault.indexVersion
  disk : DiskAgrees host world.vault world.disk

variable (vault : KnotVault) (disk : VaultDisk host) (key : Bytes32) (faults : VaultFaults)

theorem loadIndex_version (disk : VaultDisk host) (fault : Option String) (index : VaultIndex)
    (loaded : loadIndex host key disk fault = .ok index) :
    index.version = Vault.indexVersion := by
  rw [loadIndex] at loaded
  cases read : loadRecord host key disk fault with
  | error error =>
    rw [read] at loaded
    cases loaded
  | ok record =>
    simp only [read] at loaded
    by_cases supported : (record.getD emptyIndex).version = Vault.indexVersion
    · rw [if_neg (not_not.mpr supported)] at loaded
      cases loaded
      exact supported
    · rw [if_pos supported] at loaded
      cases loaded

theorem loadIndex_fault (disk : VaultDisk host) (fault : Option String) (index : VaultIndex)
    (loaded : loadIndex host key disk fault = .ok index) :
    loadIndex host key disk none = .ok index := by
  cases fault with
  | none => exact loaded
  | some error => cases loaded

theorem open_agrees (vault : KnotVault) (opened : KnotVault.open host disk key faults = .ok vault) :
    (⟨vault, disk⟩ : VaultWorld host).Agrees := by
  rw [KnotVault.open] at opened
  cases loaded : loadIndex host key disk faults.loadRecord with
  | error error =>
    rw [loaded] at opened
    cases opened
  | ok index =>
    rw [loaded] at opened
    cases opened
    refine ⟨⟨key, rfl⟩, loadIndex_version key disk _ index loaded, ?_⟩
    intro other same
    cases same
    exact loadIndex_fault key disk _ index loaded

theorem loadIndex_saved (opens : SealingOpens host) (key : Bytes32) (disk : VaultDisk host)
    (index : VaultIndex) (version : index.version = Vault.indexVersion)
    (saved : disk.index = some (host.sealRecord key index)) :
    loadIndex host key disk none = .ok index := by
  simp only [loadIndex, loadRecord, saved, opens key index, Except.map, Option.getD_some, version,
    ne_eq, not_true, if_false]

theorem save_cases (unlocked : vault.store = some key) :
    (∃ error, faults.saveRecord.isSome = true ∧
      vault.save host disk faults = (.error error, disk)) ∨
    (faults.saveRecord = none ∧ vault.save host disk faults =
      (.ok (), { disk with index := some (host.sealRecord key vault.index) })) := by
  cases fault : faults.saveRecord with
  | some error =>
    refine Or.inl ⟨s!"could not save Knot vault: {error}", rfl, ?_⟩
    simp only [KnotVault.save, unlocked, fault]
  | none =>
    refine Or.inr ⟨rfl, ?_⟩
    simp only [KnotVault.save, unlocked, fault]

theorem diskAgrees_congr (disk other : VaultDisk host) (same : other.index = disk.index)
    (agrees : DiskAgrees host vault disk) :
    DiskAgrees host vault other := by
  intro key unlocked
  have loaded := agrees key unlocked
  simp only [loadIndex, loadRecord, same] at loaded ⊢
  exact loaded

theorem deleteDerivedCaches_index (ids : List String) (disk : VaultDisk host) :
    (vault.deleteDerivedCaches host faults disk ids).2.index = disk.index := by
  induction ids generalizing disk with
  | nil => rfl
  | cons id rest ih =>
    rw [KnotVault.deleteDerivedCaches]
    cases deleted : vault.deleteDerivedCache host disk id faults with
    | error error => rfl
    | ok remaining =>
      have kept : remaining.index = disk.index := by
        rw [KnotVault.deleteDerivedCache] at deleted
        split at deleted
        · cases deleted
        · split at deleted
          · cases deleted
          · cases deleted
          · cases deleted
            rfl
      exact (ih remaining).trans kept

theorem diskAgrees_saved (opens : SealingOpens host) (vault : KnotVault) (disk : VaultDisk host)
    (key : Bytes32) (unlocked : vault.store = some key)
    (version : vault.index.version = Vault.indexVersion) :
    DiskAgrees host vault { disk with index := some (host.sealRecord key vault.index) } := by
  intro other same
  rw [unlocked] at same
  cases same
  exact loadIndex_saved opens key _ vault.index version rfl

theorem changed_cases (opens : SealingOpens host) (vault : KnotVault) (disk : VaultDisk host)
    (faults : VaultFaults) (key : Bytes32) (unlocked : vault.store = some key)
    (version : vault.index.version = Vault.indexVersion) :
    (∃ error, faults.saveRecord.isSome = true ∧
      vault.save host disk faults = (.error error, disk)) ∨
    (faults.saveRecord = none ∧ ∃ saved, vault.save host disk faults = (.ok (), saved) ∧
      DiskAgrees host vault saved) := by
  rcases save_cases vault disk key faults unlocked with failed | ⟨works, saved⟩
  · exact Or.inl failed
  · exact Or.inr ⟨works, _, saved, diskAgrees_saved opens vault disk key unlocked version⟩

theorem replaceProjection_store (documents : List VaultDocument) (faults : VaultFaults) :
    (vault.replaceProjection host disk documents faults).vault.store = vault.store := by
  simp only [KnotVault.replaceProjection]
  split
  next => rfl
  next =>
    split
    next => rfl
    next =>
      split
      next => rfl
      next => split <;> rfl

theorem put_spec (opens : SealingOpens host) (world : VaultWorld host) (agrees : world.Agrees)
    (document : VaultDocument) (faults : VaultFaults) :
    (AgreeingCall world (.put document faults) ↔
      ¬ FailsAfterChange world (.put document faults)) ∧
    (¬ FailsAfterChange world (.put document faults) →
      (world.perform host (.put document faults)).Agrees) := by
  rcases agrees.unlocked with ⟨key, unlocked⟩
  have locked : ¬ world.vault.store.isNone = true := by
    rw [unlocked]
    exact Bool.false_ne_true
  simp only [AgreeingCall, FailsAfterChange, VaultWorld.perform, KnotVault.put, if_neg locked]
  generalize documentsEq : sortDocuments (upsertDocument document world.vault.index.documents) =
    documents
  generalize revisionEq : nextRevision world.vault.index.revision = revision
  rcases changed_cases opens
      { world.vault with index := { world.vault.index with documents, revision } } world.disk
      faults key unlocked agrees.version with
    ⟨error, fails, saved⟩ | ⟨works, disk, saved, agreed⟩
  · simp only [saved, fails, true_and, not_or, ne_eq, not_not]
    have same : documents = world.vault.index.documents ∧
        revision = world.vault.index.revision →
          (⟨{ world.vault with index := { world.vault.index with documents, revision } },
            world.disk⟩ : VaultWorld host).Agrees := by
      rintro ⟨sameDocuments, sameRevision⟩
      rw [sameDocuments, sameRevision]
      exact agrees
    refine ⟨⟨?_, ?_⟩, same⟩
    · intro agreeing
      exact agreeing.refused error rfl
    · rintro ⟨documents, revision⟩
      exact ⟨fun _ _ => ⟨documents, revision⟩, by intros; contradiction⟩
  · simp only [saved, works, Option.isSome_none, Bool.false_eq_true, false_and, not_false_eq_true,
      iff_true, true_implies]
    refine ⟨⟨by intros; contradiction, fun _ _ => agreed⟩, ⟨⟨key, unlocked⟩, agrees.version, agreed⟩⟩

theorem replaceProjection_spec (opens : SealingOpens host) (world : VaultWorld host)
    (agrees : world.Agrees) (documents : List VaultDocument) (faults : VaultFaults) :
    (AgreeingCall world (.replaceProjection documents faults) ↔
      ¬ FailsAfterChange world (.replaceProjection documents faults)) ∧
    (¬ FailsAfterChange world (.replaceProjection documents faults) →
      (world.perform host (.replaceProjection documents faults)).Agrees) := by
  rcases agrees.unlocked with ⟨key, unlocked⟩
  have locked : ¬ world.vault.store.isNone = true := by
    rw [unlocked]
    exact Bool.false_ne_true
  simp only [AgreeingCall, FailsAfterChange, VaultWorld.perform, KnotVault.replaceProjection,
    if_neg locked]
  generalize sorted : sortDocuments documents = replacement
  by_cases same : world.vault.index.documents = replacement
  · simp only [same, if_true, ne_eq, not_true, false_and, and_false, not_false_eq_true, iff_true,
      true_implies]
    exact ⟨⟨by intros; contradiction, fun _ _ => agrees.disk⟩, agrees⟩
  · have kept := deleteDerivedCaches_index world.vault faults
      (world.vault.removedIds replacement) world.disk
    rcases deleted : world.vault.deleteDerivedCaches host faults world.disk
        (world.vault.removedIds replacement) with ⟨result, remaining⟩
    rw [deleted] at kept
    have remains := diskAgrees_congr world.vault world.disk remaining kept agrees.disk
    simp only [ne_eq, same, not_false_eq_true, true_and]
    cases result with
    | error error =>
      simp only [reduceCtorEq, and_false, not_false_eq_true, iff_true, true_implies]
      exact ⟨⟨fun _ _ => ⟨rfl, rfl⟩, by intros; contradiction⟩, ⟨⟨key, unlocked⟩, agrees.version, remains⟩⟩
    | ok _ =>
      rcases changed_cases opens
          { world.vault with
            index := { world.vault.index with
              documents := replacement,
              revision := nextRevision world.vault.index.revision } }
          remaining faults key unlocked agrees.version with
        ⟨error, fails, saved⟩ | ⟨works, disk, saved, agreed⟩
      · simp only [saved, fails, and_true, not_true, iff_false, false_implies]
        intro agreeing
        exact same (agreeing.refused error rfl).1.symm
      · simp only [saved, works, Option.isSome_none, Bool.false_eq_true, false_and,
          not_false_eq_true, iff_true, true_implies]
        exact ⟨⟨by intros; contradiction, fun _ _ => agreed⟩, ⟨⟨key, unlocked⟩, agrees.version, agreed⟩⟩

/-- Over any run from an opened vault, whichever record operations fail. -/
theorem memory_and_disk_agree_iff (opens : SealingOpens host) (disk : VaultDisk host)
    (key : Bytes32) (faults : VaultFaults) (vault : KnotVault)
    (opened : KnotVault.open host disk key faults = .ok vault) (calls : List VaultCall) :
    Run.Along (VaultWorld.perform host) AgreeingCall ⟨vault, disk⟩ calls ↔
      Run.Along (VaultWorld.perform host) (fun world call => ¬ FailsAfterChange world call)
        ⟨vault, disk⟩ calls := by
  refine Run.along_iff ?_ ?_ calls _ (open_agrees disk key faults vault opened)
  · intro world call agrees
    cases call with
    | put document faults => exact (put_spec opens world agrees document faults).2
    | replaceProjection documents faults =>
      exact (replaceProjection_spec opens world agrees documents faults).2
  · intro world call agrees
    cases call with
    | put document faults => exact (put_spec opens world agrees document faults).1
    | replaceProjection documents faults =>
      exact (replaceProjection_spec opens world agrees documents faults).1

def VaultHost.sample : VaultHost where
  Envelope := Bytes32 × VaultIndex
  deriveKey _ key := key
  keyedHash key _ := key
  sealRecord key index := (key, index)
  unsealRecord key envelope :=
    if envelope.1 = key then .ok envelope.2 else .error "could not unseal"

theorem sample_sealing_opens : SealingOpens VaultHost.sample := by
  intro key index
  simp only [VaultHost.sample, if_true]

def fieldNote : VaultDocument :=
  { id := "field-note", title := "Field note", body := .empty, mediaType := "text/vnd.knot" }

def openedVault : KnotVault :=
  { store := some (.filled 7), syncKey := some (.filled 7), index := emptyIndex }

def emptyDisk : VaultDisk VaultHost.sample :=
  { index := none, derivedCaches := [] }

theorem openedVault_opens :
    KnotVault.open VaultHost.sample emptyDisk (.filled 7) {} = .ok openedVault := rfl

def failedVault : KnotVault :=
  { openedVault with index :=
      { version := Vault.indexVersion, revision := 1, documents := [fieldNote] } }

theorem fieldNote_sorted : sortDocuments [fieldNote] = [fieldNote] := List.mergeSort_singleton _

theorem failed_put :
    openedVault.put VaultHost.sample emptyDisk fieldNote { saveRecord := some "disk full" } =
      ⟨.error "could not save Knot vault: disk full", failedVault, emptyDisk⟩ := by
  have revision : nextRevision 0 = 1 := by decide
  simp only [KnotVault.put, openedVault, emptyIndex, upsertDocument, fieldNote_sorted, revision]
  rfl

theorem retried_projection :
    failedVault.replaceProjection VaultHost.sample emptyDisk [fieldNote] {} =
      ⟨.ok false, failedVault, emptyDisk⟩ := by
  simp only [KnotVault.replaceProjection, fieldNote_sorted]
  rfl

/-- A put whose save fails keeps its document in memory, and the same document then arriving as a
projection finds nothing to save. -/
theorem failed_put_is_kept :
    ¬ AgreeingCall ⟨openedVault, emptyDisk⟩ (.put fieldNote { saveRecord := some "disk full" }) ∧
      ¬ AgreeingCall
        (VaultWorld.perform VaultHost.sample ⟨openedVault, emptyDisk⟩
          (.put fieldNote { saveRecord := some "disk full" }))
        (.replaceProjection [fieldNote] {}) := by
  simp only [VaultWorld.perform, AgreeingCall, failed_put, retried_projection]
  refine ⟨?_, ?_⟩
  · intro agreeing
    have kept := (agreeing.refused _ rfl).1
    cases kept
  · intro agreeing
    have loaded := agreeing.saved false rfl (.filled 7) rfl
    cases loaded

theorem memory_and_disk_agree_fieldNote :
    Run.Along (VaultWorld.perform VaultHost.sample) AgreeingCall ⟨openedVault, emptyDisk⟩
      [.put fieldNote {}] :=
  (memory_and_disk_agree_iff sample_sealing_opens emptyDisk (.filled 7) {} openedVault
    openedVault_opens [.put fieldNote {}]).mpr ⟨nofun, trivial⟩

end KnotEditor
