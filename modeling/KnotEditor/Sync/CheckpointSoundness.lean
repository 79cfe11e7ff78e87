import KnotEditor.Sync.EpochPruning
import KnotEditor.Sync.Projectable

/-! Every checkpoint a commons replica finds was taken of records that its own have grown from. -/

namespace KnotEditor

open Fallible

inductive CausallyClosed (entries : List CausalEntry) : Bytes32 → Prop
  | intro (entry : CausalEntry) : entry ∈ entries →
      (∀ parent ∈ entry.parents, CausallyClosed entries parent) →
      CausallyClosed entries entry.operation.hash

theorem CausallyClosed.mono {earlier later : List CausalEntry}
    (kept : ∀ entry ∈ earlier, entry ∈ later) {hash : Bytes32}
    (closed : CausallyClosed earlier hash) : CausallyClosed later hash := by
  induction closed with
  | intro entry member _ ih => exact .intro entry (kept entry member) ih

def Accepts (records : List StoredKnotOperation) (record : StoredKnotOperation)
    (accepted : List StoredKnotOperation) : Prop :=
  accepted = records ∨ accepted.Perm (record :: records) ∧
    (∀ held ∈ records, held.operation.hash ≠ record.operation.hash) ∧
    ∀ held ∈ records, LocalStore.headKey held = LocalStore.headKey record →
      held.operation.header.seqNum < record.operation.header.seqNum

/-- What pruning relies on: logs are append-only, an operation waits exactly while an ancestor is
missing, sealed records and serialized values come back as they were, a keyring forgets what it says
it forgot, and a held epoch is never proposed. -/
structure PruningHost.Documented (host : PruningHost) : Prop where
  stored : ∀ records operation log accepted,
    host.storeOperation records operation log = .ok accepted →
    Accepts records ⟨operation, log⟩ accepted
  waits : ∀ entries projection, host.causalProjection entries = .ok projection →
    ∀ entry ∈ entries, (∃ waiting ∈ projection.pending,
      waiting.operation = entry.operation.hash) ↔ ¬ CausallyClosed entries entry.operation.hash
  unsealed : ∀ vault other aad otherAad plaintext ciphertext opened,
    host.sealLocalStorage vault aad plaintext = .ok ciphertext →
    host.unsealLocalStorage other otherAad ciphertext = .ok opened → opened = plaintext
  envelope : ∀ envelope bytes, host.envelopeToJson envelope = .ok bytes →
    host.envelopeFromJson bytes = some envelope
  checkpointJson : ∀ checkpoint bytes found, host.checkpointToJson checkpoint = .ok bytes →
    host.checkpointFromJson bytes = .ok found → found = checkpoint
  keyring : ∀ keys bytes restored, host.keyringToBytes keys = .ok bytes →
    host.keyringFromBytes bytes = .ok restored →
    ∀ epoch, host.holdsEpoch restored epoch = host.holdsEpoch keys epoch
  forgets : ∀ keys epoch, (host.forgetAuthorized keys epoch).1 = true →
    host.holdsEpoch keys epoch = true ∧
    ∀ other, host.holdsEpoch (host.forgetAuthorized keys epoch).2 other =
      (host.holdsEpoch keys other && decide (other ≠ epoch))
  proposes : ∀ keys facts, ∀ hold ∈ facts.holds,
    hold.epoch ∉ host.forget (host.proposeEpochPruning keys facts)

structure TakenFrom (host : SyncHost) (checkpoint : KnotProjectionCheckpoint)
    (earlier : List StoredKnotOperation) : Prop where
  heads : ∀ head ∈ checkpoint.heads, ∃ record ∈ earlier, head = LocalStore.authorHead record
  pending : ∃ projection, host.causalProjection (causalEntries earlier) = .ok projection ∧
    checkpoint.pending.map Prod.fst = projection.pending.map PendingCausalOperation.operation

structure GrownFrom (earlier records : List StoredKnotOperation) : Prop where
  kept : ∀ record ∈ earlier, record ∈ records
  later : ∀ record ∈ records, record ∉ earlier → ∀ old ∈ earlier,
    LocalStore.headKey old = LocalStore.headKey record →
    old.operation.header.seqNum < record.operation.header.seqNum

theorem GrownFrom.refl (records : List StoredKnotOperation) : GrownFrom records records :=
  ⟨fun _ member => member, fun _ member absent => absurd member absent⟩

theorem GrownFrom.accept {earlier records accepted : List StoredKnotOperation}
    {record : StoredKnotOperation} (grown : GrownFrom earlier records)
    (accepts : Accepts records record accepted) : GrownFrom earlier accepted := by
  rcases accepts with rfl | ⟨same, _, above⟩
  · exact grown
  · refine ⟨fun old member => same.mem_iff.mpr (List.mem_cons_of_mem _ (grown.kept old member)), ?_⟩
    intro found member absent old oldMember sameLog
    rcases List.mem_cons.mp (same.mem_iff.mp member) with rfl | held
    · exact above old (grown.kept old oldMember) sameLog
    · exact grown.later found held absent old oldMember sameLog

/-- Every hash names one operation, and any checkpoint to be found was taken of records that the
retained ones have grown from. -/
structure SoundStore (host : PruningHost) (store : LocalStore) : Prop where
  identified : (store.sync.records.map fun record => record.operation.hash).Nodup
  checkpointed : ∀ bytes, store.backend[checkpointKey store.spaceId]? = some bytes →
    ∀ vault plaintext checkpoint,
      store.openLocal host.toCheckpointHost vault .checkpoint bytes = .ok plaintext →
      host.checkpointFromJson plaintext = .ok checkpoint →
      ∃ earlier, TakenFrom host.toSyncHost checkpoint earlier ∧
        GrownFrom earlier store.sync.records

section store

variable {host : PruningHost} {store : LocalStore} {faults : LocalFaults}

theorem mem_authorHeads {records : List StoredKnotOperation} {head : KnotAuthorHead}
    (member : head ∈ LocalStore.authorHeads records) :
    ∃ record ∈ records, head = LocalStore.authorHead record := by
  rw [LocalStore.authorHeads, KeyedCollections.mem_values_iff] at member
  rcases member with ⟨key, found⟩
  induction records using List.reverseRecOn with
  | nil => simp at found
  | append_singleton records last ih =>
    rw [List.foldl_append, List.foldl_cons, List.foldl_nil] at found
    have split : (records.foldl LocalStore.insertHead ∅)[key]? = some head ∨
        head = LocalStore.authorHead last := by
      unfold LocalStore.insertHead at found
      split at found
      · by_cases same : LocalStore.headKey last = key
        · subst same
          rw [Std.ExtTreeMap.getElem?_insert_self] at found
          cases found
          exact .inr rfl
        · rw [KeyedCollections.getElem?_insert_of_ne _ same] at found
          exact .inl found
      · split at found
        · by_cases same : LocalStore.headKey last = key
          · subst same
            rw [Std.ExtTreeMap.getElem?_insert_self] at found
            cases found
            exact .inr rfl
          · rw [KeyedCollections.getElem?_insert_of_ne _ same] at found
            exact .inl found
        · exact .inl found
    rcases split with before | rfl
    · rcases ih before with ⟨record, held, same⟩
      exact ⟨record, List.mem_append_left _ held, same⟩
    · exact ⟨last, by simp, rfl⟩

theorem projection_pending {cipher : KnotSyncCipher} {strictness : KnotProjectionStrictness}
    {projection : KnotDocumentProjection}
    (projected : store.sync.projectionWithCipherAndStrictness host.toSyncHost cipher strictness =
      .ok projection) :
    ∃ causal, host.causalProjection (causalEntries store.sync.records) = .ok causal ∧
      projection.pending = causal.pending := by
  rcases KnotSyncStore.closed_of_projection projected with ⟨order, pending, closed, same⟩
  rcases bind_eq_ok_iff.mp closed with ⟨causal, found, done⟩
  rw [mapError_eq_ok_iff] at found
  exact ⟨causal, found, same.trans (congrArg Prod.snd (Except.ok.inj done)).symm⟩

theorem loadOperations_eq_ok {records : List StoredKnotOperation}
    (loaded : store.loadOperations faults = .ok records) : records = store.sync.records := by
  unfold LocalStore.loadOperations at loaded
  split at loaded
  · cases loaded
  · cases loaded
    rfl

theorem checkpointRecords_eq_ok {cipher : KnotSyncCipher} {records : List StoredKnotOperation}
    (checked : store.checkpointRecords host.toCheckpointHost faults cipher = .ok records) :
    records = store.sync.records := by
  rcases then_eq_ok_iff.mp checked with ⟨_, afterCipher⟩
  rcases bind_eq_ok_iff.mp afterCipher with ⟨loaded, load, afterLoad⟩
  rcases then_eq_ok_iff.mp afterLoad with ⟨_, afterEach⟩
  rcases then_eq_ok_iff.mp afterEach with ⟨_, done⟩
  cases done
  exact loadOperations_eq_ok load

theorem takenFrom_buildCheckpoint {cipher : KnotSyncCipher}
    {checkpoint : KnotProjectionCheckpoint}
    (built : store.buildCheckpointWithCipher host.toCheckpointHost faults cipher =
      .ok checkpoint) : TakenFrom host.toSyncHost checkpoint store.sync.records := by
  rcases bind_eq_ok_iff.mp built with ⟨records, checked, afterRecords⟩
  rcases bind_eq_ok_iff.mp afterRecords with ⟨projection, projected, afterProjection⟩
  rcases bind_eq_ok_iff.mp afterProjection with ⟨digests, _, finished⟩
  cases finished
  rw [mapError_eq_ok_iff] at projected
  cases checkpointRecords_eq_ok checked
  rcases projection_pending projected with ⟨causal, found, same⟩
  refine ⟨fun head member => mem_authorHeads member, causal, found, ?_⟩
  rw [List.map_map, same]
  rfl

theorem openLocal_sealLocal (documented : host.Documented) {vault other : host.Vault}
    {kind : RecordKind} {plaintext bytes opened : ByteArray}
    (sealedBytes : store.sealLocal host.toCheckpointHost vault kind plaintext = .ok bytes)
    {later : LocalStore}
    (found : later.openLocal host.toCheckpointHost other kind bytes = .ok opened) :
    opened = plaintext := by
  rcases bind_eq_ok_iff.mp sealedBytes with ⟨ciphertext, closed, enveloped⟩
  rw [mapError_eq_ok_iff] at closed enveloped
  unfold LocalStore.openLocal at found
  rw [documented.envelope _ _ enveloped] at found
  simp only at found
  split at found
  · cases found
  · split at found
    · cases found
    · rw [mapError_eq_ok_iff] at found
      exact documented.unsealed _ _ _ _ _ _ _ closed found

theorem keyring_ne_checkpoint (spaceId : Bytes32) :
    communalKeyringKey spaceId ≠ checkpointKey spaceId :=
  fun same => absurd ((String.append_left_inj (hex32 spaceId)).mp same) (by decide)

theorem marker_ne_checkpoint (spaceId : Bytes32) : markerKey spaceId ≠ checkpointKey spaceId :=
  fun same => absurd ((String.append_left_inj (hex32 spaceId)).mp same) (by decide)

theorem receipt_ne_checkpoint (spaceId : Bytes32) :
    communalEpochReceiptKey spaceId ≠ checkpointKey spaceId :=
  fun same => absurd ((String.append_left_inj (hex32 spaceId)).mp same) (by decide)

theorem sound_accept (documented : host.Documented) (sound : SoundStore host store)
    {operation : Operation} {accepted : LocalStore}
    (done : store.accept host.toCheckpointHost operation = .ok accepted) :
    SoundStore host accepted := by
  rcases bind_eq_ok_iff.mp done with ⟨sync, admitted, finished⟩
  cases finished
  rw [mapError_eq_ok_iff] at admitted
  rcases then_eq_ok_iff.mp admitted with ⟨_, afterPolicy⟩
  rcases bind_eq_ok_iff.mp afterPolicy with ⟨records, stored, kept⟩
  cases kept
  rw [mapError_eq_ok_iff] at stored
  have accepts := documented.stored _ _ _ _ stored
  refine ⟨?_, ?_⟩
  · rcases accepts with rfl | ⟨same, fresh, _⟩
    · exact sound.identified
    · refine (same.map _).nodup_iff.mpr ?_
      rw [List.map_cons, List.nodup_cons]
      refine ⟨?_, sound.identified⟩
      intro member
      rcases List.mem_map.mp member with ⟨held, inside, clash⟩
      exact fresh held inside clash
  · intro bytes found vault plaintext checkpoint opened parsed
    rcases sound.checkpointed bytes found vault plaintext checkpoint opened parsed with
      ⟨earlier, taken, grown⟩
    exact ⟨earlier, taken, grown.accept accepts⟩

theorem sound_apply (sound : SoundStore host store) {writes : List (String × ByteArray)}
    (elsewhere : ∀ write ∈ writes, write.1 ≠ checkpointKey store.spaceId) {written : LocalStore}
    (applied : store.apply faults writes = .ok written) : SoundStore host written := by
  unfold LocalStore.apply at applied
  split at applied
  · cases applied
  · cases applied
    have untouched : (writes.foldl (fun backend write => backend.insert write.1 write.2)
        store.backend)[checkpointKey store.spaceId]? =
          store.backend[checkpointKey store.spaceId]? := by
      induction writes using List.reverseRecOn with
      | nil => rfl
      | append_singleton writes last ih =>
        rw [List.foldl_append, List.foldl_cons, List.foldl_nil,
          KeyedCollections.getElem?_insert_of_ne _ (elsewhere last (by simp))]
        exact ih fun write member => elsewhere write (List.mem_append_left _ member)
    refine ⟨sound.identified, ?_⟩
    intro bytes found
    exact sound.checkpointed bytes (untouched.symm.trans found)

theorem apply_eq_ok {writes : List (String × ByteArray)} {written : LocalStore}
    (applied : store.apply faults writes = .ok written) :
    written = { store with
      backend := writes.foldl (fun backend write => backend.insert write.1 write.2)
        store.backend } := by
  unfold LocalStore.apply at applied
  split at applied
  · cases applied
  · cases applied
    rfl

theorem storageMarkerWrite_key {vault : host.Vault} {write : String × ByteArray}
    (marked : store.storageMarkerWrite host.toCheckpointHost vault = .ok write) :
    write.1 = markerKey store.spaceId := by
  rcases bind_eq_ok_iff.mp marked with ⟨_, _, named⟩
  cases named
  rfl

theorem sealKeyring_key {keys : host.Keyring} {vault : host.Vault} {write : String × ByteArray}
    (keyed : store.sealKeyring host.toCheckpointHost vault keys = .ok write) :
    write.1 = communalKeyringKey store.spaceId := by
  rcases bind_eq_ok_iff.mp keyed with ⟨_, _, afterBytes⟩
  rcases bind_eq_ok_iff.mp afterBytes with ⟨_, _, named⟩
  cases named
  rfl

theorem sound_saveCheckpoint (documented : host.Documented) (sound : SoundStore host store)
    {keys : host.Keyring} {vault : host.Vault} {checkpoint : KnotProjectionCheckpoint}
    {saved : LocalStore}
    (done : store.saveCommunalCheckpoint host.toCheckpointHost faults keys vault =
      .ok (checkpoint, saved)) : SoundStore host saved := by
  rcases then_eq_ok_iff.mp done with ⟨_, afterCipher⟩
  rcases bind_eq_ok_iff.mp afterCipher with ⟨_, _, afterLoad⟩
  rcases bind_eq_ok_iff.mp afterLoad with ⟨built, build, afterBuild⟩
  rcases bind_eq_ok_iff.mp afterBuild with ⟨plaintext, serialized, afterJson⟩
  rcases bind_eq_ok_iff.mp afterJson with ⟨sealedCheckpoint, sealedBytes, afterSeal⟩
  rcases bind_eq_ok_iff.mp afterSeal with ⟨markerWrite, marked, afterMarker⟩
  rcases then_eq_ok_iff.mp afterMarker with ⟨_, afterKeyring⟩
  rcases bind_eq_ok_iff.mp afterKeyring with ⟨keyringWrite, keyed, afterSealed⟩
  rcases bind_eq_ok_iff.mp afterSealed with ⟨written, applied, finished⟩
  cases finished
  cases apply_eq_ok applied
  refine ⟨sound.identified, ?_⟩
  intro bytes found other opened parsed opens parses
  have stored : bytes = sealedCheckpoint := by
    change (((store.backend.insert (checkpointKey store.spaceId) sealedCheckpoint).insert
      markerWrite.1 markerWrite.2).insert keyringWrite.1 keyringWrite.2)[checkpointKey
        store.spaceId]? = some bytes at found
    rw [storageMarkerWrite_key marked, sealKeyring_key keyed,
      KeyedCollections.getElem?_insert_of_ne _ (keyring_ne_checkpoint store.spaceId),
      KeyedCollections.getElem?_insert_of_ne _ (marker_ne_checkpoint store.spaceId),
      Std.ExtTreeMap.getElem?_insert_self] at found
    cases found
    rfl
  subst stored
  cases openLocal_sealLocal documented sealedBytes opens
  rw [mapError_eq_ok_iff] at serialized
  cases documented.checkpointJson _ _ _ serialized parses
  exact ⟨store.sync.records, takenFrom_buildCheckpoint build, .refl _⟩

theorem sound_persistKeyring (sound : SoundStore host store) {keys : host.Keyring}
    {vault : host.Vault} {saved : LocalStore}
    (done : store.persistCommunalKeyring host.toCheckpointHost faults keys vault = .ok saved) :
    SoundStore host saved := by
  rcases then_eq_ok_iff.mp (refuse_eq_ok_iff.mp done).2 with ⟨_, afterClean⟩
  rcases bind_eq_ok_iff.mp afterClean with ⟨found, _, afterGet⟩
  have writes : ∃ markerWrite keyringWrite,
      store.storageMarkerWrite host.toCheckpointHost vault = .ok markerWrite ∧
      store.sealKeyring host.toCheckpointHost vault keys = .ok keyringWrite ∧
      store.apply faults [markerWrite, keyringWrite] = .ok saved := by
    have rest : (do
        let keyringWrite ← store.sealKeyring host.toCheckpointHost vault keys
        let markerWrite ← store.storageMarkerWrite host.toCheckpointHost vault
        store.apply faults [markerWrite, keyringWrite]) = Except.ok saved := by
      cases found with
      | none => exact afterGet
      | some bytes => exact (then_eq_ok_iff.mp afterGet).2
    rcases bind_eq_ok_iff.mp rest with ⟨keyringWrite, keyed, afterKeyed⟩
    rcases bind_eq_ok_iff.mp afterKeyed with ⟨markerWrite, marked, applied⟩
    exact ⟨markerWrite, keyringWrite, marked, keyed, applied⟩
  rcases writes with ⟨markerWrite, keyringWrite, marked, keyed, applied⟩
  refine sound_apply sound ?_ applied
  intro write member
  rcases List.mem_cons.mp member with rfl | last
  · rw [storageMarkerWrite_key marked]
    exact marker_ne_checkpoint store.spaceId
  · cases List.mem_singleton.mp last
    rw [sealKeyring_key keyed]
    exact keyring_ne_checkpoint store.spaceId

end store

end KnotEditor
