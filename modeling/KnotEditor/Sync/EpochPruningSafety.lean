import KnotEditor.Library.Run
import KnotEditor.Sync.CheckpointSoundness

/-! Epoch pruning never forgets a key that a checkpointed replica still needs. -/

namespace KnotEditor

open Fallible

section store

variable {host : PruningHost} {store : LocalStore} {faults : LocalFaults}

theorem forgetAll_eq_ok (documented : host.Documented) {keys reduced : host.Keyring}
    {epochs : List Bytes32} (done : LocalStore.forgetAll host keys epochs = .ok reduced) :
    (∀ epoch, host.holdsEpoch reduced epoch =
      (host.holdsEpoch keys epoch && decide (epoch ∉ epochs))) ∧
    ∀ epoch ∈ epochs, host.holdsEpoch keys epoch = true := by
  induction epochs generalizing keys with
  | nil =>
    cases done
    simp
  | cons first rest ih =>
    rcases bind_eq_ok_iff.mp done with ⟨middle, forgotten, remaining⟩
    simp only at forgotten
    split at forgotten
    · rename_i authorized
      cases forgotten
      rcases ih remaining with ⟨kept, held⟩
      rcases documented.forgets keys first authorized with ⟨known, after⟩
      refine ⟨?_, ?_⟩
      · intro epoch
        rw [kept, after, Bool.and_assoc]
        simp only [List.mem_cons, not_or, Bool.decide_and, ne_eq]
      · intro epoch member
        rcases List.mem_cons.mp member with rfl | later
        · exact known
        · have still := held epoch later
          rw [after, Bool.and_eq_true] at still
          exact still.1
    · cases forgotten

structure Reviewed (host : PruningHost) (store : LocalStore) (faults : LocalFaults)
    (keys : host.Keyring) (vault : host.Vault) (reviewed : host.Proposal)
    (request : LocalStore.PruningRequest) (execution : LocalStore.PruningExecution host) :
    Prop where
  current : ∃ facts, store.epochRetentionFacts host faults keys vault request = .ok facts ∧
    reviewed = host.proposeEpochPruning keys facts
  forgotten : execution.receipt.forgotten = host.forget reviewed
  reduced : ∀ epoch, host.holdsEpoch execution.reduced epoch =
    (host.holdsEpoch keys epoch && decide (epoch ∉ host.forget reviewed))
  known : ∀ epoch ∈ host.forget reviewed, host.holdsEpoch keys epoch = true
  elsewhere : ∀ write ∈ execution.writes, write.1 ≠ checkpointKey store.spaceId

theorem reviewed_of_reduction (documented : host.Documented) {keys : host.Keyring}
    {vault : host.Vault} {reviewed : host.Proposal} {request : LocalStore.PruningRequest}
    {execution : LocalStore.PruningExecution host}
    (done : store.reviewedReduction host faults keys vault reviewed request = .ok execution) :
    Reviewed host store faults keys vault reviewed request execution := by
  rcases bind_eq_ok_iff.mp done with ⟨current, proposed, afterProposal⟩
  rcases refuse_eq_ok_iff.mp afterProposal with ⟨same, afterSame⟩
  rcases refuse_eq_ok_iff.mp afterSame with ⟨_, afterReady⟩
  rw [not_not] at same
  subst same
  rcases bind_eq_ok_iff.mp proposed with ⟨facts, gathered, made⟩
  cases made
  split at afterReady
  · cases afterReady
  · rename_i checkpoint _
    rcases bind_eq_ok_iff.mp afterReady with ⟨before, serialized, afterBytes⟩
    rcases bind_eq_ok_iff.mp afterBytes with ⟨restored, parsed, afterRestored⟩
    rcases bind_eq_ok_iff.mp afterRestored with ⟨reduced, forgot, afterForgot⟩
    rcases bind_eq_ok_iff.mp afterForgot with ⟨after, _, afterAfter⟩
    rcases bind_eq_ok_iff.mp afterAfter with ⟨sealedKeyring, _, afterSeal⟩
    split at afterSeal
    · cases afterSeal
    · rcases bind_eq_ok_iff.mp afterSeal with ⟨markerWrite, marked, afterMarker⟩
      rcases bind_eq_ok_iff.mp afterMarker with ⟨receiptBytes, _, finished⟩
      cases finished
      rw [mapError_eq_ok_iff] at serialized parsed
      have restores := documented.keyring _ _ _ serialized parsed
      rcases forgetAll_eq_ok documented forgot with ⟨kept, held⟩
      refine ⟨⟨facts, gathered, rfl⟩, rfl, ?_, ?_, ?_⟩
      · intro epoch
        rw [kept, restores]
      · intro epoch member
        rw [← restores]
        exact held epoch member
      · intro write member
        simp only [List.mem_cons, List.not_mem_nil, or_false] at member
        rcases member with rfl | rfl | rfl
        · exact keyring_ne_checkpoint store.spaceId
        · rw [storageMarkerWrite_key marked]
          exact marker_ne_checkpoint store.spaceId
        · exact receipt_ne_checkpoint store.spaceId

theorem execute_cases (host : PruningHost) (store : LocalStore) (faults : LocalFaults)
    (keys : host.Keyring) (vault : host.Vault) (reviewed : host.Proposal)
    (request : LocalStore.PruningRequest) :
    (∃ error, store.executeCommunalEpochPruning host faults keys vault reviewed request =
      (.error error, keys, store)) ∨
    ∃ execution written,
      store.reviewedReduction host faults keys vault reviewed request = .ok execution ∧
      store.apply faults execution.writes = .ok written ∧
      store.executeCommunalEpochPruning host faults keys vault reviewed request =
        (.ok execution.receipt, execution.reduced, written) := by
  cases reduced : store.reviewedReduction host faults keys vault reviewed request with
  | error error =>
    refine .inl ⟨error, ?_⟩
    rw [LocalStore.executeCommunalEpochPruning, reduced]
  | ok execution =>
    cases applied : store.apply faults execution.writes with
    | error error =>
      refine .inl ⟨error, ?_⟩
      rw [LocalStore.executeCommunalEpochPruning, reduced]
      simp only [applied]
    | ok written =>
      refine .inr ⟨execution, written, rfl, applied, ?_⟩
      rw [LocalStore.executeCommunalEpochPruning, reduced]
      simp only [applied]

def Held (host : PruningHost) (facts : EpochRetentionFacts) (operation : Operation) : Prop :=
  ∃ hold ∈ facts.holds, communalOperationEpoch host.toSyncHost operation = .ok hold.epoch

theorem holdEpoch_eq_ok {reason : EpochHoldReason} {operation : Operation} {hold : EpochHold}
    (held : holdEpoch host.toSyncHost reason operation = .ok hold) :
    communalOperationEpoch host.toSyncHost operation = .ok hold.epoch := by
  unfold holdEpoch at held
  cases found : communalOperationEpoch host.toSyncHost operation with
  | error error =>
    rw [found] at held
    cases held
  | ok epoch =>
    rw [found] at held
    cases held
    rfl

theorem recordOf_eq {records : List StoredKnotOperation}
    (identified : (records.map fun record => record.operation.hash).Nodup)
    {record found : StoredKnotOperation} (member : record ∈ records)
    (located : recordOf records record.operation.hash = some found) : found = record := by
  have inside := List.mem_reverse.mp (List.mem_of_find?_eq_some located)
  have same := List.find?_some located
  rw [decide_eq_true_eq] at same
  exact List.inj_on_of_nodup_map identified inside member same

theorem held_of_named {facts : EpochRetentionFacts} {records : List StoredKnotOperation}
    (identified : (records.map fun record => record.operation.hash).Nodup)
    {record : StoredKnotOperation} (member : record ∈ records) {reason : EpochHoldReason}
    {absent : String} {hold : EpochHold} (among : hold ∈ facts.holds)
    (named : holdNamed host.toSyncHost records reason absent record.operation.hash = .ok hold) :
    Held host facts record.operation := by
  unfold holdNamed at named
  split at named
  · cases named
  · rename_i found located
    cases recordOf_eq identified member located
    exact ⟨hold, among, holdEpoch_eq_ok named⟩

def After (checkpoint : KnotProjectionCheckpoint) (record : StoredKnotOperation) : Prop :=
  ∀ head ∈ checkpoint.heads, head.author = record.operation.header.verifyingKey →
    head.logId = record.logId → head.seqNum < record.operation.header.seqNum

theorem inTail_of_after {checkpoint : KnotProjectionCheckpoint} {record : StoredKnotOperation}
    (after : After checkpoint record) : checkpoint.inTail record = true := by
  unfold KnotProjectionCheckpoint.inTail
  split
  · rfl
  · rename_i seqNum found
    rcases Option.map_eq_some_iff.mp found with ⟨head, located, rfl⟩
    have inside := List.mem_reverse.mp (List.mem_of_find?_eq_some located)
    have same := List.find?_some located
    rw [Bool.and_eq_true, decide_eq_true_eq, decide_eq_true_eq] at same
    rw [decide_eq_true_eq]
    exact after head inside same.1 same.2

theorem mem_tail {checkpoint : KnotProjectionCheckpoint} {records : List StoredKnotOperation}
    {record : StoredKnotOperation} (member : record ∈ records)
    (after : After checkpoint record) :
    record.operation.hash ∈ checkpoint.tail records := by
  refine List.mem_map.mpr ⟨record, ?_, rfl⟩
  rw [List.mem_mergeSort, List.mem_filter]
  exact ⟨member, inTail_of_after after⟩

theorem hasCaptureMaterial_of_mem {cipher : KnotSyncCipher} {operations : List Operation}
    {answer : Bool} (asked : hasCaptureMaterial host.toSyncHost cipher operations = .ok answer)
    {operation : Operation} (member : operation ∈ operations) {event : KnotSyncEvent}
    (decoded : decodeEvent host.toSyncHost cipher operation = .ok event)
    (material : event.isCaptureMaterial = true) : answer = true := by
  induction operations with
  | nil => cases member
  | cons first rest ih =>
    unfold hasCaptureMaterial at asked
    split at asked
    · cases asked
    · rename_i found decodedFirst
      split at asked
      · cases asked
        rfl
      · rename_i other
        rcases List.mem_cons.mp member with rfl | later
        · rw [decoded] at decodedFirst
          cases decodedFirst
          exact absurd material other
        · exact ih asked later

/-- The keys a proposal may not touch: those of whatever waits for its ancestors, of whatever came
after the checkpoint, of everything where there is no checkpoint, and of every closed operation once
there is material that needs its sources. -/
structure HoldsNeeded (host : PruningHost) (store : LocalStore) (faults : LocalFaults)
    (keys : host.Keyring) (vault : host.Vault) (facts : EpochRetentionFacts) : Prop where
  pending : ∀ order waiting, store.sync.closedOperations host.toSyncHost = .ok (order, waiting) →
    ∀ record ∈ store.sync.records,
      (∃ entry ∈ waiting, entry.operation = record.operation.hash) →
      Held host facts record.operation
  unbased : store.loadCheckpoint host.toCheckpointHost faults vault = .ok none →
    ∀ record ∈ store.sync.records, Held host facts record.operation
  based : ∀ checkpoint, store.loadCheckpoint host.toCheckpointHost faults vault =
      .ok (some checkpoint) →
    ∀ record ∈ store.sync.records,
      After checkpoint record ∨ record.operation.hash ∈ checkpoint.pending.map Prod.fst →
      Held host facts record.operation
  material : ∀ order waiting, store.sync.closedOperations host.toSyncHost = .ok (order, waiting) →
    ∀ operation ∈ order, ∀ event,
      decodeEvent host.toSyncHost (.commonsData (host.dataKeyring keys)) operation = .ok event →
      event.isCaptureMaterial = true → ∀ other ∈ order, Held host facts other

theorem causalEntry_mem {records : List StoredKnotOperation} {record : StoredKnotOperation}
    (member : record ∈ records) : ∃ entry ∈ causalEntries records,
      entry.operation = record.operation :=
  ⟨_, List.mem_map_of_mem member, rfl⟩

theorem based_of_pending (documented : host.Documented) {checkpoint : KnotProjectionCheckpoint}
    {earlier records : List StoredKnotOperation}
    (taken : TakenFrom host.toSyncHost checkpoint earlier) (grown : GrownFrom earlier records)
    {projection : CausalProjection}
    (projected : host.causalProjection (causalEntries records) = .ok projection)
    {record : StoredKnotOperation} (member : record ∈ records)
    (waits : ∃ entry ∈ projection.pending, entry.operation = record.operation.hash) :
    After checkpoint record ∨ record.operation.hash ∈ checkpoint.pending.map Prod.fst := by
  by_cases old : record ∈ earlier
  · rcases taken.pending with ⟨past, before, same⟩
    rcases causalEntry_mem member with ⟨entry, inside, operation⟩
    rcases causalEntry_mem old with ⟨oldEntry, oldInside, oldOperation⟩
    rw [← operation] at waits
    have missing := (documented.waits _ _ projected entry inside).mp waits
    rw [operation, ← oldOperation] at missing
    have kept : ∀ entry ∈ causalEntries earlier, entry ∈ causalEntries records := by
      intro entry found
      rcases List.mem_map.mp found with ⟨source, held, rfl⟩
      exact List.mem_map_of_mem (grown.kept source held)
    rcases (documented.waits _ _ before oldEntry oldInside).mpr
      (fun closed => missing (closed.mono kept)) with ⟨waiting, among, named⟩
    refine .inr ?_
    rw [same, ← oldOperation, ← named]
    exact List.mem_map_of_mem among
  · refine .inl fun head inside author log => ?_
    rcases taken.heads head inside with ⟨source, held, rfl⟩
    refine grown.later record member old source held ?_
    rw [LocalStore.headKey, LocalStore.headKey]
    exact congrArg toLex (Prod.ext author log)

theorem closedOperations_eq_ok {order : List Operation} {waiting : List PendingCausalOperation}
    (closed : store.sync.closedOperations host.toSyncHost = .ok (order, waiting)) :
    ∃ projection, host.causalProjection (causalEntries store.sync.records) = .ok projection ∧
      order = operationsAt store.sync.records projection.order ∧
      waiting = projection.pending := by
  rcases bind_eq_ok_iff.mp closed with ⟨projection, found, done⟩
  cases done
  rw [mapError_eq_ok_iff] at found
  exact ⟨projection, found, rfl, rfl⟩

theorem loadCheckpoint_eq_some (sound : SoundStore host store) {vault : host.Vault}
    {checkpoint : KnotProjectionCheckpoint}
    (loaded : store.loadCheckpoint host.toCheckpointHost faults vault = .ok (some checkpoint)) :
    ∃ earlier, TakenFrom host.toSyncHost checkpoint earlier ∧
      GrownFrom earlier store.sync.records := by
  rcases then_eq_ok_iff.mp loaded with ⟨_, afterClean⟩
  rcases bind_eq_ok_iff.mp afterClean with ⟨found, got, afterGet⟩
  have held : found = store.backend[checkpointKey store.spaceId]? := by
    unfold LocalStore.get at got
    split at got
    · cases got
    · cases got
      rfl
  cases found with
  | none => cases afterGet
  | some bytes =>
    rcases bind_eq_ok_iff.mp afterGet with ⟨plaintext, opened, afterOpen⟩
    rcases bind_eq_ok_iff.mp afterOpen with ⟨parsed, parses, afterParse⟩
    rw [mapError_eq_ok_iff] at parses
    split at afterParse
    · cases afterParse
    · cases afterParse
      exact sound.checkpointed bytes held.symm vault plaintext checkpoint opened parses

theorem holdsNeeded_of_facts (documented : host.Documented) (sound : SoundStore host store)
    {keys : host.Keyring} {vault : host.Vault} {request : LocalStore.PruningRequest}
    {facts : EpochRetentionFacts}
    (gathered : store.epochRetentionFacts host faults keys vault request = .ok facts) :
    HoldsNeeded host store faults keys vault facts := by
  rcases then_eq_ok_iff.mp (refuse_eq_ok_iff.mp gathered).2 with ⟨_, afterKeys⟩
  rcases bind_eq_ok_iff.mp afterKeys with ⟨records, loaded, afterLoad⟩
  cases loadOperations_eq_ok loaded
  rcases bind_eq_ok_iff.mp afterLoad with ⟨stored, checkpointed, afterCheckpoint⟩
  cases stored with
  | none =>
    rcases bind_eq_ok_iff.mp afterCheckpoint with ⟨holds, mapped, finished⟩
    cases finished
    have all : ∀ record ∈ store.sync.records,
        Held host ⟨none, holds ++ LocalStore.requestedHolds request⟩ record.operation := by
      intro record member
      rcases exists_of_mapM_eq_ok mapped record member with ⟨hold, among, held⟩
      exact ⟨hold, List.mem_append_left _ among, holdEpoch_eq_ok held⟩
    refine ⟨fun _ _ _ record member _ => all record member, fun _ => all, ?_, ?_⟩
    · intro checkpoint other
      rw [checkpointed] at other
      cases other
    · intro order waiting closed _ _ _ _ _ other member
      rcases closedOperations_eq_ok closed with ⟨projection, _, rfl, _⟩
      rcases mem_operationsAt member with ⟨record, inside, rfl⟩
      exact all record inside
  | some checkpoint =>
    rcases bind_eq_ok_iff.mp afterCheckpoint with ⟨tail, received, afterTail⟩
    rcases bind_eq_ok_iff.mp afterTail with ⟨closedHeld, closed, afterClosed⟩
    rcases bind_eq_ok_iff.mp afterClosed with ⟨laterHeld, later, afterLater⟩
    rcases bind_eq_ok_iff.mp afterLater with ⟨pendingHeld, pending, afterPending⟩
    rcases bind_eq_ok_iff.mp afterPending with ⟨basis, _, finished⟩
    cases finished
    have tailed : tail.operations = checkpoint.tail store.sync.records := by
      rcases bind_eq_ok_iff.mp received with ⟨again, loadedAgain, afterAgain⟩
      rw [checkpointed] at loadedAgain
      cases loadedAgain
      rcases bind_eq_ok_iff.mp afterAgain with ⟨digest, _, afterDigest⟩
      rcases bind_eq_ok_iff.mp afterDigest with ⟨found, operations, done⟩
      cases done
      rw [loadOperations_eq_ok operations]
    have based : ∀ record ∈ store.sync.records,
        After checkpoint record ∨ record.operation.hash ∈ checkpoint.pending.map Prod.fst →
        Held host ⟨some basis, closedHeld ++ laterHeld ++ pendingHeld ++
          LocalStore.requestedHolds request⟩ record.operation := by
      rintro record member (after | waiting)
      · rw [LocalStore.tailHolds, tailed] at later
        rcases exists_of_mapM_eq_ok later _ (mem_tail member after) with ⟨hold, among, named⟩
        exact held_of_named sound.identified member (by simp [among]) named
      · rcases List.mem_map.mp waiting with ⟨entry, inside, same⟩
        rcases exists_of_mapM_eq_ok pending entry inside with ⟨hold, among, named⟩
        rw [same] at named
        exact held_of_named sound.identified member (by simp [among]) named
    refine ⟨?_, ?_, ?_, ?_⟩
    · intro order waiting operations record member waits
      rcases closedOperations_eq_ok operations with ⟨projection, projected, _, rfl⟩
      rcases loadCheckpoint_eq_some sound checkpointed with ⟨earlier, taken, grown⟩
      exact based record member (based_of_pending documented taken grown projected member waits)
    · intro absent
      rw [checkpointed] at absent
      cases absent
    · intro other found
      rw [checkpointed] at found
      cases found
      exact based
    · intro order waiting operations operation member event decoded material other inside
      rcases closedOperations_eq_ok operations with ⟨projection, projected, rfl, _⟩
      rcases bind_eq_ok_iff.mp closed with ⟨causal, found, afterCausal⟩
      rw [mapError_eq_ok_iff, projected] at found
      cases found
      rcases bind_eq_ok_iff.mp afterCausal with ⟨answer, asked, mapped⟩
      cases hasCaptureMaterial_of_mem asked member decoded material
      rcases exists_of_mapM_eq_ok mapped other inside with ⟨hold, among, held⟩
      exact ⟨hold, by simp [among], holdEpoch_eq_ok held⟩

end store

inductive CommunalAction (host : PruningHost)
  | accept (operation : Operation)
  | setWriters (writers : List Bytes32)
  | saveCheckpoint (keys : host.Keyring) (vault : host.Vault) (faults : LocalFaults)
  | persistKeyring (keys : host.Keyring) (vault : host.Vault) (faults : LocalFaults)
  | prune (keys : host.Keyring) (vault : host.Vault) (reviewed : host.Proposal)
      (request : LocalStore.PruningRequest) (faults : LocalFaults)
  | reopen

def LocalStore.perform (host : PruningHost) (store : LocalStore) :
    CommunalAction host → LocalStore
  | .accept operation =>
    (store.accept host.toCheckpointHost operation).toOption.getD store
  | .setWriters writers =>
    { store with sync := { store.sync with policy := { store.sync.policy with writers } } }
  | .saveCheckpoint keys vault faults =>
    ((store.saveCommunalCheckpoint host.toCheckpointHost faults keys vault).map
      Prod.snd).toOption.getD store
  | .persistKeyring keys vault faults =>
    (store.persistCommunalKeyring host.toCheckpointHost faults keys vault).toOption.getD store
  | .prune keys vault reviewed request faults =>
    (store.executeCommunalEpochPruning host faults keys vault reviewed request).2.2
  | .reopen => { store with storageFresh := false }

def LocalStore.fresh (policy : KnotSyncPolicy) : LocalStore := ⟨⟨[], policy⟩, ∅, true⟩

theorem sound_getD {host : PruningHost} {store : LocalStore} (sound : SoundStore host store)
    {result : Except CheckpointError LocalStore}
    (works : ∀ later, result = .ok later → SoundStore host later) :
    SoundStore host (result.toOption.getD store) := by
  cases result with
  | error error => exact sound
  | ok later => exact works later rfl

theorem soundStore_perform {host : PruningHost} (documented : host.Documented) (store : LocalStore)
    (action : CommunalAction host) (sound : SoundStore host store) :
    SoundStore host (store.perform host action) := by
  cases action with
  | accept operation => exact sound_getD sound fun _ done => sound_accept documented sound done
  | setWriters writers => exact ⟨sound.identified, sound.checkpointed⟩
  | saveCheckpoint keys vault faults =>
    refine sound_getD sound fun later done => ?_
    cases saved : store.saveCommunalCheckpoint host.toCheckpointHost faults keys vault with
    | error error =>
      rw [saved] at done
      cases done
    | ok result =>
      rw [saved] at done
      cases done
      exact sound_saveCheckpoint documented sound saved
  | persistKeyring keys vault faults =>
    exact sound_getD sound fun _ done => sound_persistKeyring sound done
  | prune keys vault reviewed request faults =>
    change SoundStore host
      (store.executeCommunalEpochPruning host faults keys vault reviewed request).2.2
    rcases execute_cases host store faults keys vault reviewed request with
      ⟨error, refused⟩ | ⟨execution, written, reduced, applied, done⟩
    · rw [refused]
      exact sound
    · rw [done]
      exact sound_apply sound (reviewed_of_reduction documented reduced).elsewhere applied
  | reopen => exact ⟨sound.identified, sound.checkpointed⟩

theorem soundStore_run {host : PruningHost} (documented : host.Documented) (policy : KnotSyncPolicy)
    (actions : List (CommunalAction host)) :
    SoundStore host (actions.foldl (LocalStore.perform host) (.fresh policy)) := by
  have always : Run.Along (LocalStore.perform host) (fun _ _ => True) (.fresh policy) actions :=
    Run.along_always (fun _ _ => trivial) actions _
  refine Run.invariant_run
    (fun store action sound _ => soundStore_perform documented store action sound) actions _ ?_ always
  refine ⟨List.nodup_nil, ?_⟩
  intro bytes found
  simp [LocalStore.fresh] at found

structure ForgetsReviewed (host : PruningHost) (store : LocalStore) (faults : LocalFaults)
    (keys : host.Keyring) (vault : host.Vault) (reviewed : host.Proposal)
    (request : LocalStore.PruningRequest) (receipt : KnotEpochExecutionReceipt)
    (remaining : host.Keyring) : Prop where
  receipt : receipt.forgotten = host.forget reviewed
  removes : ∀ epoch, host.holdsEpoch remaining epoch =
    (host.holdsEpoch keys epoch && decide (epoch ∉ host.forget reviewed))
  known : ∀ epoch ∈ host.forget reviewed, host.holdsEpoch keys epoch = true
  spares : ∃ facts, store.epochRetentionFacts host faults keys vault request = .ok facts ∧
    HoldsNeeded host store faults keys vault facts ∧
    ∀ hold ∈ facts.holds, hold.epoch ∉ host.forget reviewed ∧
      host.holdsEpoch remaining hold.epoch = host.holdsEpoch keys hold.epoch

structure ShoalProposal where
  checkpoint : Option Bytes32
  forget : List Bytes32
  deriving DecidableEq

def shoalEnvelope (kind : RecordKind) : UInt8 :=
  match kind with
  | .checkpoint => 1
  | .communalKeyring => 2
  | .storageMarker => 3

def shoalKind (tag : UInt8) : Option RecordKind :=
  if tag = 1 then some .checkpoint
  else if tag = 2 then some .communalKeyring
  else if tag = 3 then some .storageMarker
  else none

def shoalHolds (epochs : List UInt8) (epoch : Bytes32) : Bool :=
  epochs.any fun held => decide (epoch = .filled held)

def shoalHost (known : KnotProjectionCheckpoint) : PruningHost where
  toSyncHost := { SyncHost.sample .byHash [.delete "ebb", .delete "flow"] with
    causalProjection := fun entries =>
      if entries.all fun entry => entry.parents.isEmpty then
        .ok ⟨List.range entries.length, []⟩
      else .error "an ancestor is missing"
    storeOperation := fun records operation log =>
      if records.all fun record => decide (record.operation.hash ≠ operation.hash) &&
          decide (record.operation.header.seqNum < operation.header.seqNum) then
        .ok (records ++ [⟨operation, log⟩])
      else .ok records
    decodeEnvelope := fun body =>
      match body.data.toList with
      | [epoch, key] => .ok ⟨.filled epoch, ⟨#[key]⟩⟩
      | _ => .error "not an envelope"
    headerHash := fun header => .filled (header.seqNum.toUInt8 + 1) }
  Vault := Unit
  isLocked _ := false
  sealLocalStorage _ _ plaintext := .ok plaintext
  unsealLocalStorage _ _ ciphertext := .ok ciphertext
  envelopeToJson envelope :=
    if envelope.format = envelopeFormat ∧ envelope.version = 1 ∧ envelope.spaceId = .filled 0 ∧
        envelope.profile = .commonsDataV1 then
      .ok ⟨(shoalEnvelope envelope.kind :: envelope.ciphertext.data.toList).toArray⟩
    else .error "unsupported envelope"
  envelopeFromJson bytes :=
    match bytes.data.toList with
    | [] => none
    | tag :: ciphertext => (shoalKind tag).map fun kind =>
      ⟨envelopeFormat, 1, .filled 0, .commonsDataV1, kind, ⟨ciphertext.toArray⟩⟩
  Keyring := List UInt8
  KeyringView := List UInt8
  sameView := inferInstance
  dataKeyring epochs := {
    sealRandom := fun plaintext => .ok ⟨.filled 0, plaintext⟩
    openEnvelope := fun envelope =>
      if shoalHolds epochs envelope.epoch then .ok envelope.sealed else .error "unknown epoch" }
  keyringView epochs := .ok epochs
  keyringToBytes epochs := .ok ⟨epochs.toArray⟩
  keyringFromBytes bytes := .ok bytes.data.toList
  checkpointToJson checkpoint :=
    if checkpoint = known then .ok ⟨#[1]⟩ else .error "unsupported checkpoint"
  checkpointFromJson bytes :=
    if bytes = ⟨#[1]⟩ then .ok known else .error "unsupported checkpoint"
  documentToJson _ := .ok .empty
  blake3 _ := .filled 9
  validateOperation _ := .ok ()
  recordIndex _ := .ok ()
  wholeIndex _ := .ok ()
  holdsEpoch := shoalHolds
  forgetAuthorized epochs epoch :=
    (shoalHolds epochs epoch, epochs.filter fun held => decide (epoch ≠ .filled held))
  epochsOldestFirst epochs := some (epochs.map Bytes32.filled)
  Proposal := ShoalProposal
  sameProposal := inferInstance
  proposeEpochPruning epochs facts := {
    checkpoint := (facts.checkpoint.filter EpochCheckpointBasis.authorContinuationReady).map
      EpochCheckpointBasis.checkpoint
    forget := (epochs.dropLast.map Bytes32.filled).filter fun epoch =>
      facts.holds.all fun hold => decide (hold.epoch ≠ epoch) }
  isExecutable proposal := proposal.checkpoint.isSome
  proposalCheckpoint proposal := proposal.checkpoint
  forget := ShoalProposal.forget
  receiptToJson _ := .ok .empty

def shoalOperation (hash : UInt8) (epoch key : UInt8) : Operation where
  hash := .filled hash
  header := {
    verifyingKey := .filled 10
    seqNum := UInt32.ofNat (hash.toNat - 1)
    backlink := none
    extensions := {
      spaceId := .filled 0
      encryption := .commonsDataV1
      parents := []
      assertedAtMs := none }
    encoded := .empty }
  body := some ⟨#[epoch, key]⟩

def shoalCheckpoint : KnotProjectionCheckpoint where
  version := 1
  spaceId := .filled 0
  heads := [⟨.filled 10, 0, 1, .filled 2⟩]
  documentDigests := []
  conflictIds := []
  pending := []
  snapshot := some ⟨[], [], [], [("ebb", .filled 1), ("flow", .filled 2)], [], [], [], [], []⟩

def shoalPolicy : KnotSyncPolicy := ⟨.filled 0, [.filled 10], .commonsDataV1⟩

def shoalKeys : List UInt8 := [1, 2]

def shoalActions : List (CommunalAction (shoalHost shoalCheckpoint)) := [
  .accept (shoalOperation 1 1 0),
  .accept (shoalOperation 2 2 1),
  .saveCheckpoint shoalKeys () {}]

abbrev shoalStore : LocalStore :=
  shoalActions.foldl (LocalStore.perform (shoalHost shoalCheckpoint)) (.fresh shoalPolicy)

def shoalRequest : LocalStore.PruningRequest := ⟨.filled 3, .filled 3, [], []⟩

def shoalReviewed : ShoalProposal := ⟨some (.filled 9), [.filled 1]⟩

abbrev shoalExecuted :
    Except CheckpointError KnotEpochExecutionReceipt × List UInt8 × LocalStore :=
  shoalStore.executeCommunalEpochPruning (shoalHost shoalCheckpoint) {} shoalKeys () shoalReviewed
    shoalRequest

theorem shoalKind_envelope (kind : RecordKind) : shoalKind (shoalEnvelope kind) = some kind := by
  cases kind <;> rfl

theorem shoalHolds_filter (epochs : List UInt8) (epoch other : Bytes32) :
    shoalHolds (epochs.filter fun held => decide (epoch ≠ .filled held)) other =
      (shoalHolds epochs other && decide (other ≠ epoch)) := by
  rw [Bool.eq_iff_iff]
  simp only [shoalHolds, List.any_eq_true, List.mem_filter, Bool.and_eq_true, decide_eq_true_eq]
  constructor
  · rintro ⟨found, ⟨member, apart⟩, rfl⟩
    exact ⟨⟨found, member, rfl⟩, Ne.symm apart⟩
  · rintro ⟨⟨found, member, rfl⟩, apart⟩
    exact ⟨found, ⟨member, Ne.symm apart⟩, rfl⟩

theorem shoalHost_documented (known : KnotProjectionCheckpoint) :
    (shoalHost known).Documented where
  stored := by
    intro records operation log accepted kept
    simp only [shoalHost] at kept
    split at kept
    · rename_i new
      cases kept
      simp only [List.all_eq_true, Bool.and_eq_true, decide_eq_true_eq] at new
      exact .inr ⟨List.perm_append_singleton _ _, fun held member => (new held member).1,
        fun held member _ => (new held member).2⟩
    · cases kept
      exact .inl rfl
  waits := by
    intro entries projection projected entry member
    simp only [shoalHost] at projected
    split at projected
    · rename_i rootless
      cases projected
      rw [List.all_eq_true] at rootless
      have closed : CausallyClosed entries entry.operation.hash := by
        refine .intro entry member ?_
        intro parent among
        rw [List.isEmpty_iff.mp (rootless entry member)] at among
        cases among
      simp [closed]
    · cases projected
  unsealed := by
    intro vault other aad otherAad plaintext ciphertext opened closed found
    cases closed
    cases found
    rfl
  envelope := by
    intro envelope bytes written
    simp only [shoalHost] at written ⊢
    split at written
    · rename_i fits
      cases written
      rcases envelope with ⟨format, version, spaceId, profile, kind, ciphertext⟩
      rcases fits with ⟨rfl, rfl, rfl, rfl⟩
      simp [shoalKind_envelope]
    · cases written
  checkpointJson := by
    intro checkpoint bytes found written read
    simp only [shoalHost] at written read
    split at written
    · rename_i same
      split at read
      · cases read
        exact same.symm
      · cases read
    · cases written
  keyring := by
    intro keys bytes restored written read epoch
    cases written
    cases read
    rfl
  forgets := by
    intro keys epoch held
    refine ⟨held, fun other => ?_⟩
    exact shoalHolds_filter keys epoch other
  proposes := by
    intro keys facts hold among proposed
    simp only [shoalHost, List.mem_filter, List.all_eq_true, decide_eq_true_eq] at proposed
    exact proposed.2 hold among rfl

end KnotEditor
