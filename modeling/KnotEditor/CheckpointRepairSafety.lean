import KnotEditor.CheckpointMigrationSafety
import KnotEditor.CheckpointRepair
import KnotEditor.Sync.EpochPruningSafety

/-! A repaired store holds its protected records sealed and everything else as it was, and a
rewritten checkpoint is one of the retained history. -/

namespace KnotEditor

open Fallible

structure RepairHost.SealsFaithfully (host : RepairHost) : Prop where
  unsealed : ∀ vault aad plaintext ciphertext,
    host.sealLocalStorage vault aad plaintext = .ok ciphertext →
    host.unsealLocalStorage vault aad ciphertext = .ok plaintext
  envelope : ∀ envelope bytes, host.envelopeToJson envelope = .ok bytes →
    host.envelopeFromJson bytes = some envelope

def recordKey (spaceId : Bytes32) : RecordKind → String
  | .checkpoint => checkpointKey spaceId
  | .communalKeyring => communalKeyringKey spaceId
  | .storageMarker => markerKey spaceId

namespace CheckpointRepair

theorem checkpoint_ne_marker (spaceId : Bytes32) : checkpointKey spaceId ≠ markerKey spaceId :=
  fun same => absurd ((String.append_left_inj (hex32 spaceId)).mp same) (by decide)

theorem keyring_ne_marker (spaceId : Bytes32) : communalKeyringKey spaceId ≠ markerKey spaceId :=
  fun same => absurd ((String.append_left_inj (hex32 spaceId)).mp same) (by decide)

theorem keyring_ne_checkpoint (spaceId : Bytes32) :
    communalKeyringKey spaceId ≠ checkpointKey spaceId :=
  fun same => absurd ((String.append_left_inj (hex32 spaceId)).mp same) (by decide)

variable (host : RepairHost) (spaceId : Bytes32) (writers : List Bytes32)
  (cipher : RepairCipher host) (vault : host.Vault)

/-- Every protected record of a file opens as a sealed envelope of its space, profile and kind. -/
def AllSealed (entries : MigrationEntries) : Prop :=
  ∀ (kind : RecordKind) (bytes : ByteArray), entries[recordKey spaceId kind]? = some bytes →
    ∃ plaintext, openRecord host spaceId writers cipher vault entries kind bytes = .ok plaintext

/-- The file's checkpoint is the one of the source's retained history, none of which is pending and
which leaves out nothing the previous checkpoint stood for. -/
structure RebuiltFrom (source active : MigrationEntries) : Prop where
  checkpoint : ∃ rebuilt plaintext bytes,
    (replica host spaceId writers cipher source).buildCheckpointWithCipher host.toCheckpointHost
      (replicaFaults host spaceId source) cipher.toSync = .ok rebuilt ∧
    rebuilt.pending = [] ∧
    host.checkpointToJson rebuilt = .ok plaintext ∧
    active[checkpointKey spaceId]? = some bytes ∧
    openRecord host spaceId writers cipher vault active .checkpoint bytes = .ok plaintext
  history : ∃ records old sealed, retainedHistory host spaceId source = .ok records ∧
    readCheckpoint host spaceId writers cipher vault source = .ok (old, sealed) ∧
    ∀ previous, old = some previous →
      (∀ head ∈ previous.heads, ∃ record ∈ records, head = LocalStore.authorHead record) ∧
      (records = [] → previous.hasMaterial = false)

structure Repaired (source active : MigrationEntries)
    (receipt : KnotCheckpointRepairReceipt) : Prop where
  sealed : AllSealed host spaceId writers cipher vault active
  preserved : ∀ key : String, key ∉ (repairScope spaceId).managedKeys → active[key]? = source[key]?
  rebuilt : receipt.rewritten = true → RebuiltFrom host spaceId writers cipher vault source active

/-- How an opening with repair of a file with the entries `source` ends. -/
structure Settles (source : MigrationEntries)
    (outcome : Except RepairError RepairedStore × Option MigrationEntries) : Prop where
  granted : ∀ opened, outcome.1 = .ok opened → ∃ active, outcome.2 = some active ∧
    Repaired host spaceId writers cipher vault source active opened.receipt
  refused : ∀ error, outcome.1 = .error error →
    (∀ reason, error ≠ .checkpointReplacementDurability reason) → outcome.2 = some source

variable {host spaceId writers cipher vault}

theorem openRecord_sealRecord (faithful : host.SealsFaithfully) {entries : MigrationEntries}
    {kind : RecordKind} {plaintext bytes : ByteArray}
    (sealed : sealRecord host spaceId writers cipher vault entries kind plaintext = .ok bytes)
    (other : MigrationEntries) :
    openRecord host spaceId writers cipher vault other kind bytes = .ok plaintext := by
  obtain ⟨ciphertext, closed, enveloped⟩ := bind_eq_ok_iff.mp sealed
  rw [mapError_eq_ok_iff] at closed enveloped
  have opened := faithful.unsealed _ _ _ _ closed
  unfold openRecord LocalStore.openLocal
  rw [faithful.envelope _ _ enveloped]
  have sameSpace : (replica host spaceId writers cipher entries).spaceId =
    (replica host spaceId writers cipher other).spaceId := rfl
  have sameProfile : (replica host spaceId writers cipher entries).profile =
    (replica host spaceId writers cipher other).profile := rfl
  simp only [sameSpace, sameProfile, ne_eq, not_true_eq_false, or_self, if_false]
  exact mapError_eq_ok_iff.mpr opened

variable {entries : MigrationEntries}

theorem openOrLegacy_eq_ok {kind : RecordKind} {bytes plaintext : ByteArray}
    (opened : openOrLegacy host spaceId writers cipher vault entries kind bytes =
      .ok (plaintext, true)) :
    openRecord host spaceId writers cipher vault entries kind bytes = .ok plaintext := by
  unfold openOrLegacy at opened
  split at opened
  next found =>
    cases opened
    exact found
  · cases opened
  · cases opened

theorem readMarker_eq_ok (marked : readMarker host spaceId writers cipher vault entries = .ok true)
    {bytes : ByteArray} (present : entries[markerKey spaceId]? = some bytes) :
    openRecord host spaceId writers cipher vault entries .storageMarker bytes = .ok marker := by
  unfold readMarker at marked
  rw [present] at marked
  obtain ⟨found, opened, rest⟩ := bind_eq_ok_iff.mp marked
  split at rest
  · cases rest
  next same =>
    rw [opened, not_not.mp same]

theorem readCheckpoint_eq_ok {old : Option KnotProjectionCheckpoint}
    (read : readCheckpoint host spaceId writers cipher vault entries = .ok (old, true))
    {bytes : ByteArray} (present : entries[checkpointKey spaceId]? = some bytes) :
    ∃ plaintext,
      openRecord host spaceId writers cipher vault entries .checkpoint bytes = .ok plaintext := by
  unfold readCheckpoint at read
  rw [present] at read
  obtain ⟨⟨plaintext, sealed⟩, opened, rest⟩ := bind_eq_ok_iff.mp read
  obtain ⟨value, _, rest⟩ := bind_eq_ok_iff.mp rest
  split at rest
  · cases rest
  · cases rest
    exact ⟨plaintext, openOrLegacy_eq_ok opened⟩

theorem readKeyring_eq_ok {keys : Option host.Keyring}
    (read : readKeyring host spaceId writers cipher vault entries = .ok (keys, true))
    {bytes : ByteArray} (present : entries[communalKeyringKey spaceId]? = some bytes) :
    ∃ plaintext,
      openRecord host spaceId writers cipher vault entries .communalKeyring bytes =
        .ok plaintext := by
  unfold readKeyring at read
  rw [present] at read
  obtain ⟨_, rest⟩ := refuse_eq_ok_iff.mp read
  obtain ⟨⟨plaintext, sealed⟩, opened, rest⟩ := bind_eq_ok_iff.mp rest
  obtain ⟨value, _, rest⟩ := bind_eq_ok_iff.mp rest
  cases rest
  exact ⟨plaintext, openOrLegacy_eq_ok opened⟩

theorem loadOperations_eq_ok {records : List StoredKnotOperation}
    (loaded : (replica host spaceId writers cipher entries).loadOperations
      (replicaFaults host spaceId entries) = .ok records) :
    retainedHistory host spaceId entries = .ok records := by
  unfold LocalStore.loadOperations replicaFaults replica at loaded
  cases retained : retainedHistory host spaceId entries with
  | error reason =>
    rw [retained] at loaded
    cases loaded
  | ok found =>
    simp only [retained, Except.toOption, Option.getD_some] at loaded
    rw [Except.ok.inj loaded]

theorem retainsHead_iff {records : List StoredKnotOperation} {head : KnotAuthorHead} :
    retainsHead records head = true ↔ ∃ record ∈ records, head = LocalStore.authorHead record := by
  simp only [retainsHead, List.any_eq_true, Bool.and_eq_true, beq_iff_eq, LocalStore.authorHead]
  constructor
  · rintro ⟨record, member, ⟨⟨log, seq⟩, author⟩, operation⟩
    refine ⟨record, member, ?_⟩
    rw [log, seq, author, operation]
  · rintro ⟨record, member, rfl⟩
    exact ⟨record, member, ⟨⟨rfl, rfl⟩, rfl⟩, rfl⟩

theorem checkHistory_eq_ok {records : List StoredKnotOperation}
    {old : Option KnotProjectionCheckpoint} (checked : checkHistory records old = .ok ()) :
    ∀ previous, old = some previous →
      (∀ head ∈ previous.heads, ∃ record ∈ records, head = LocalStore.authorHead record) ∧
      (records = [] → previous.hasMaterial = false) := by
  rintro previous rfl
  simp only [checkHistory] at checked
  split at checked
  · cases checked
  next retained =>
    split at checked
    · cases checked
    next material =>
      simp only [Bool.not_eq_true', Bool.not_eq_false, List.all_eq_true] at retained
      refine ⟨fun head member => retainsHead_iff.mp (retained head member), ?_⟩
      rintro rfl
      simpa using material

theorem rebuild_eq_ok {next : Bytes32} {replacements : Std.ExtTreeMap String (Option ByteArray)}
    (rebuilt : rebuild host spaceId writers cipher vault entries = .ok (next, replacements)) :
    ∃ checkpoint plaintext bytes clean keyring,
      (replica host spaceId writers cipher entries).buildCheckpointWithCipher host.toCheckpointHost
        (replicaFaults host spaceId entries) cipher.toSync = .ok checkpoint ∧
      checkpoint.pending = [] ∧ host.checkpointToJson checkpoint = .ok plaintext ∧
      sealRecord host spaceId writers cipher vault entries .checkpoint plaintext = .ok bytes ∧
      sealRecord host spaceId writers cipher vault entries .storageMarker marker = .ok clean ∧
      sealedKeyring host spaceId writers cipher vault entries = .ok keyring ∧
      replacements[checkpointKey spaceId]? = some (some bytes) ∧
      replacements[markerKey spaceId]? = some (some clean) ∧
      replacements[communalKeyringKey spaceId]? = some keyring := by
  unfold rebuild at rebuilt
  obtain ⟨checkpoint, built, rest⟩ := bind_eq_ok_iff.mp rebuilt
  obtain ⟨complete, rest⟩ := refuse_eq_ok_iff.mp rest
  obtain ⟨_, _, rest⟩ := bind_eq_ok_iff.mp rest
  obtain ⟨plaintext, written, rest⟩ := bind_eq_ok_iff.mp rest
  obtain ⟨bytes, sealed, rest⟩ := bind_eq_ok_iff.mp rest
  obtain ⟨clean, marked, rest⟩ := bind_eq_ok_iff.mp rest
  obtain ⟨keyring, keyed, rest⟩ := bind_eq_ok_iff.mp rest
  rw [mapError_eq_ok_iff] at written
  cases rest
  refine ⟨checkpoint, plaintext, bytes, clean, keyring, built, ?_, written, sealed, marked, keyed,
    ?_, ?_, ?_⟩
  · simpa using complete
  · rw [KeyedCollections.getElem?_insert_of_ne _ (keyring_ne_checkpoint spaceId),
      KeyedCollections.getElem?_insert_of_ne _ (checkpoint_ne_marker spaceId).symm,
      Std.ExtTreeMap.getElem?_insert_self]
  · rw [KeyedCollections.getElem?_insert_of_ne _ (keyring_ne_marker spaceId),
      Std.ExtTreeMap.getElem?_insert_self]
  · rw [Std.ExtTreeMap.getElem?_insert_self]

theorem sealedKeyring_eq_ok (faithful : host.SealsFaithfully) {entries : MigrationEntries}
    {bytes : ByteArray}
    (keyed : sealedKeyring host spaceId writers cipher vault entries = .ok (some bytes))
    (other : MigrationEntries) :
    ∃ plaintext,
      openRecord host spaceId writers cipher vault other .communalKeyring bytes =
        .ok plaintext := by
  unfold sealedKeyring at keyed
  split at keyed
  · cases keyed
  · obtain ⟨plaintext, _, rest⟩ := bind_eq_ok_iff.mp keyed
    obtain ⟨found, sealed, rest⟩ := bind_eq_ok_iff.mp rest
    cases rest
    exact ⟨plaintext, openRecord_sealRecord faithful sealed other⟩

section Prepare

variable {source active : MigrationEntries} {memory : Option String}

theorem allSealed_of_current {previous next : Option Bytes32}
    (prepared : prepare host spaceId writers cipher vault source memory =
      .ok (.current, previous, next)) :
    AllSealed host spaceId writers cipher vault source := by
  unfold prepare at prepared
  obtain ⟨_, rest⟩ := then_eq_ok_iff.mp prepared
  obtain ⟨marked, clean, rest⟩ := bind_eq_ok_iff.mp rest
  obtain ⟨⟨old, sealed⟩, checkpoint, rest⟩ := bind_eq_ok_iff.mp rest
  obtain ⟨before, _, rest⟩ := bind_eq_ok_iff.mp rest
  obtain ⟨⟨keys, kept⟩, keyring, rest⟩ := bind_eq_ok_iff.mp rest
  split at rest
  next current =>
    simp only [Bool.and_eq_true] at current
    obtain ⟨⟨rfl, rfl⟩, rfl⟩ := current
    intro kind bytes present
    cases kind with
    | checkpoint => exact readCheckpoint_eq_ok checkpoint present
    | communalKeyring => exact readKeyring_eq_ok keyring present
    | storageMarker => exact ⟨marker, readMarker_eq_ok clean present⟩
  · -- Any other file is rewritten or refused.
    obtain ⟨_, rest⟩ := then_eq_ok_iff.mp rest
    obtain ⟨_, _, rest⟩ := bind_eq_ok_iff.mp rest
    obtain ⟨_, rest⟩ := then_eq_ok_iff.mp rest
    obtain ⟨_, _, rest⟩ := bind_eq_ok_iff.mp rest
    cases rest

theorem prepare_rewrite {previous next : Option Bytes32}
    {replacements : Std.ExtTreeMap String (Option ByteArray)}
    (prepared : prepare host spaceId writers cipher vault source memory =
      .ok (.rewrite replacements, previous, next)) :
    ∃ records old sealed identity, retainedHistory host spaceId source = .ok records ∧
      readCheckpoint host spaceId writers cipher vault source = .ok (old, sealed) ∧
      checkHistory records old = .ok () ∧
      rebuild host spaceId writers cipher vault source = .ok (identity, replacements) := by
  unfold prepare at prepared
  obtain ⟨_, rest⟩ := then_eq_ok_iff.mp prepared
  obtain ⟨marked, _, rest⟩ := bind_eq_ok_iff.mp rest
  obtain ⟨⟨old, sealed⟩, checkpoint, rest⟩ := bind_eq_ok_iff.mp rest
  obtain ⟨before, _, rest⟩ := bind_eq_ok_iff.mp rest
  obtain ⟨⟨keys, kept⟩, _, rest⟩ := bind_eq_ok_iff.mp rest
  split at rest
  · cases rest
  · obtain ⟨_, rest⟩ := then_eq_ok_iff.mp rest
    obtain ⟨records, loaded, rest⟩ := bind_eq_ok_iff.mp rest
    obtain ⟨checked, rest⟩ := then_eq_ok_iff.mp rest
    obtain ⟨⟨identity, table⟩, rebuilt, rest⟩ := bind_eq_ok_iff.mp rest
    cases rest
    exact ⟨records, old, sealed, identity, loadOperations_eq_ok loaded, checkpoint, checked, rebuilt⟩

theorem repaired_of_rewrite (faithful : host.SealsFaithfully) {previous next : Option Bytes32}
    {replacements : Std.ExtTreeMap String (Option ByteArray)}
    (prepared : prepare host spaceId writers cipher vault source memory =
      .ok (.rewrite replacements, previous, next))
    (rewritten : Migration.Rewritten (repairScope spaceId) source replacements active) :
    AllSealed host spaceId writers cipher vault active ∧
      RebuiltFrom host spaceId writers cipher vault source active := by
  obtain ⟨records, old, wasSealed, identity, retained, read, checked, rebuilt⟩ :=
    prepare_rewrite prepared
  obtain ⟨checkpoint, plaintext, bytes, clean, keyring, built, complete, written, sealed, marked,
    keyed, atCheckpoint, atMarker, atKeyring⟩ := rebuild_eq_ok rebuilt
  have opens := openRecord_sealRecord faithful sealed active
  have inPlace : active[checkpointKey spaceId]? = some bytes := by
    rw [rewritten.applied, atCheckpoint]
    rfl
  refine ⟨?_, ⟨checkpoint, plaintext, bytes, built, complete, written, inPlace, opens⟩,
    ⟨records, old, wasSealed, retained, read, checkHistory_eq_ok checked⟩⟩
  intro kind found present
  rw [rewritten.applied] at present
  cases kind with
  | checkpoint =>
    rw [recordKey, atCheckpoint] at present
    cases present
    exact ⟨plaintext, opens⟩
  | storageMarker =>
    rw [recordKey, atMarker] at present
    cases present
    exact ⟨marker, openRecord_sealRecord faithful marked active⟩
  | communalKeyring =>
    rw [recordKey, atKeyring, Option.getD_some] at present
    subst present
    exact sealedKeyring_eq_ok faithful keyed active

end Prepare

theorem migrationFailure_uncommitted {error : MigrationError}
    (failed : ∀ reason, migrationFailure error ≠ .checkpointReplacementDurability reason) :
    error.replacementCommitted = false := by
  cases committed : error.replacementCommitted with
  | false => rfl
  | true =>
    refine absurd ?_ (failed error.text)
    simp [migrationFailure, committed]

theorem exists_observed {observed : Except String (MigrationDecision × Option Bytes32 × Option Bytes32)}
    {decision : MigrationDecision} (decided : observed.map Prod.fst = .ok decision) :
    ∃ receipt, observed = .ok (decision, receipt) := by
  cases observed with
  | error reason => cases decided
  | ok found =>
    cases decided
    exact ⟨found.2, rfl⟩

theorem settles_of_error (source : MigrationEntries) (error : RepairError) :
    Settles host spaceId writers cipher vault source (.error error, some source) where
  granted := by
    intro opened granted
    cases granted
  refused := by
    intro error _ _
    rfl

theorem openExisting_settles (faithful : host.SealsFaithfully) (faults : RepairFaults)
    (source : MigrationEntries) :
    Settles host spaceId writers cipher vault source
      ((openExisting host spaceId writers cipher vault faults ⟨source, none⟩).1,
        some (openExisting host spaceId writers cipher vault faults ⟨source, none⟩).2.active) := by
  have outcome := Migration.openOrRewrite_outcome host.migration (repairScope spaceId)
    (fun entries => ((prepare host spaceId writers cipher vault entries faults.memory).mapError
      CheckpointError.text).map Prod.fst) faults.toMigrationFaults source
  unfold openExisting
  simp only
  generalize Migration.openOrRewrite host.migration (repairScope spaceId) _
    faults.toMigrationFaults ⟨source, none⟩ = opened at outcome ⊢
  obtain ⟨result, files⟩ := opened
  cases outcome with
  | refused early => exact settles_of_error source _
  | unsynced committed decided rewritten =>
    constructor
    · intro opened granted
      cases granted
    · intro error failed durable
      cases failed
      have early := migrationFailure_uncommitted durable
      rw [committed] at early
      cases early
  | current decided unwritten describes counted =>
    obtain ⟨observed, prepared⟩ := exists_observed decided
    rw [prepared]
    constructor
    · intro opened granted
      cases granted
      rw [mapError_eq_ok_iff] at prepared
      refine ⟨source, rfl, allSealed_of_current prepared, fun _ _ => rfl, ?_⟩
      intro written
      rw [unwritten] at written
      cases written
    · intro error failed
      cases failed
  | rewritten decided written rewritten describes =>
    obtain ⟨observed, prepared⟩ := exists_observed decided
    rw [prepared]
    constructor
    · intro opened granted
      cases granted
      rw [mapError_eq_ok_iff] at prepared
      have both := repaired_of_rewrite faithful prepared rewritten
      exact ⟨_, rfl, both.1, rewritten.preserved, fun _ => both.2⟩
    · intro error failed
      cases failed

/-- Whatever the file held and whatever fails, a repair that is granted leaves every protected
record sealed and invents no history, and one that is not leaves the file as it was. -/
theorem repair_seals_and_keeps_history (faithful : host.SealsFaithfully) (faults : RepairFaults)
    (source : MigrationEntries) :
    Settles host spaceId writers cipher vault source
      (openWithCheckpointRepair host spaceId writers cipher vault faults (some source)) := by
  unfold openWithCheckpointRepair
  split
  · exact settles_of_error source _
  · split
    · exact settles_of_error source _
    · contradiction
    next found =>
      cases found
      exact openExisting_settles faithful faults source

def shoalRepair : RepairHost where
  toCheckpointHost := { (shoalHost shoalCheckpoint).toCheckpointHost with
    checkpointToJson := fun checkpoint =>
      if checkpoint = shoalCheckpoint then .ok ⟨#[9]⟩ else .error "unsupported checkpoint"
    checkpointFromJson := fun bytes =>
      if bytes = ⟨#[9]⟩ then .ok shoalCheckpoint else .error "unsupported checkpoint" }
  migration := ⟨Unit, fun _ => ()⟩
  retained entries :=
    if entries.contains "log" then .ok [⟨shoalOperation 1 1 0, 0⟩, ⟨shoalOperation 2 2 1, 0⟩]
    else .ok []

theorem shoalRepair_faithful : shoalRepair.SealsFaithfully where
  unsealed := by
    intro vault aad plaintext ciphertext closed
    cases closed
    rfl
  envelope := (shoalHost_documented shoalCheckpoint).envelope

def shoalFile : MigrationEntries :=
  ((∅ : MigrationEntries).insert "log" ⟨#[1, 2]⟩).insert (checkpointKey (.filled 0)) ⟨#[9]⟩

abbrev shoalOpened : Except RepairError RepairedStore × Option MigrationEntries :=
  openWithCheckpointRepair shoalRepair (.filled 0) [.filled 10] (.commonsData shoalKeys) ()
    { inspect := fun _ => .ok ⟨true, 1, 0, 0⟩ } (some shoalFile)

/-- A plaintext checkpoint is sealed, its log untouched. -/
theorem repair_of_a_plaintext_checkpoint :
    (shoalOpened.1.toOption.map fun opened => opened.receipt.rewritten) = some true ∧
      Settles shoalRepair (.filled 0) [.filled 10] (.commonsData shoalKeys) () shoalFile
        shoalOpened := by
  refine ⟨by decide +kernel, ?_⟩
  exact repair_seals_and_keeps_history shoalRepair_faithful
    { inspect := fun _ => .ok ⟨true, 1, 0, 0⟩ } shoalFile

end CheckpointRepair

end KnotEditor
