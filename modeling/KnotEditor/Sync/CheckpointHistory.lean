import KnotEditor.Sync.Checkpoint
import KnotEditor.Sync.Projectable
import KnotEditor.Utf8
import Mathlib.Data.Finset.Dedup
import Mathlib.Data.Finset.Insert

/-! The audit of retained signed history against the indexes of its storage: a log entry for each
operation, a pointer that leads to it, and an association for each author. -/

namespace KnotEditor

abbrev Backend := Std.ExtTreeMap String ByteArray

/-- The store over a backend, which knows how log entries are laid out. `none` is an absent log or
operation. -/
structure HistoryHost extends SyncHost where
  encodeCbor : Nat → Except String ByteArray
  validateOperation : Operation → Except String Unit
  resolve : Backend → Bytes32 → Except String (Std.ExtTreeMap Bytes32 (List Nat))
  getLogEntries : Backend → Bytes32 → Nat → Except String (Option (List Operation))
  getOperation : Backend → Bytes32 → Except String (Option Operation)
  decodeEntry : ByteArray → Option Operation

structure RetainedFaults where
  get : String → Option String := fun _ => none
  list : String → Option String := fun _ => none

structure RetainedStore where
  policy : KnotSyncPolicy
  backend : Backend

def hexBytes (bytes : ByteArray) : String := String.ofList (bytes.data.toList.flatMap hexPair)

def hex16 (value : UInt64) : String :=
  String.ofList ((List.range 16).reverse.map fun place =>
    hexDigit (value.toNat / 16 ^ place % 16))

def logKey (segment : String) (operation : Operation) : String :=
  "log/" ++ hex32 operation.author ++ "/" ++ segment ++ "/" ++
    hex16 operation.header.seqNum.toUInt64

def operationKey (operation : Operation) : String := "op/" ++ hex32 operation.hash

def topicKey (spaceId : Bytes32) (segment : String) (operation : Operation) : String :=
  "topic/" ++ hex32 spaceId ++ "/" ++ hex32 operation.author ++ "/" ++ segment

structure AuditedKeys where
  logs : Finset String
  operations : Finset String
  topics : Finset String

namespace RetainedStore

variable (host : HistoryHost) (store : RetainedStore) (faults : RetainedFaults)

def get (key : String) : Except CheckpointError (Option ByteArray) :=
  match faults.get key with
  | some reason => .error (.store reason)
  | none => .ok store.backend[key]?

def keysUnder (start : String) : List String :=
  store.backend.keys.filter fun key => start.toList.isPrefixOf key.toList

def list (start : String) : Except CheckpointError (Finset String) :=
  match faults.list start with
  | some reason => .error (.store reason)
  | none => .ok (store.keysUnder start).toFinset

def logSegment : Except CheckpointError String :=
  match host.encodeCbor logId with
  | .error reason => .error (.sync (.payload reason))
  | .ok bytes => .ok (hexBytes bytes)

def loadLog (author : Bytes32) (logId : Nat) :
    Except CheckpointError (List StoredKnotOperation) := do
  match ← (host.getLogEntries store.backend author logId).mapError CheckpointError.store with
  | none => .ok []
  | some entries => .ok (entries.map fun operation => ⟨operation, logId⟩)

def loadOperations : Except CheckpointError (List StoredKnotOperation) := do
  let logs ← (host.resolve store.backend store.policy.spaceId).mapError CheckpointError.store
  let loaded ← logs.toList.mapM fun log => do
    let entries ← (log.2.mergeSort (fun one two => decide (one ≤ two))).dedup.mapM
      (store.loadLog host log.1)
    .ok entries.flatten
  .ok loaded.flatten

def checkSigned (cipher : KnotSyncCipher) (record : StoredKnotOperation) :
    Except CheckpointError Unit := do
  let operation := record.operation
  if record.logId ≠ logId then
    .error (historyError "uses an unexpected log identity")
  (host.validateOperation operation).mapError fun reason =>
    CheckpointError.sync (.payload s!"invalid retained operation: {reason}")
  if operation.hash ≠ host.headerHash operation.header then
    .error (historyError "operation id does not match its signed header")
  if operation.header.extensions.spaceId ≠ store.policy.spaceId ∨
      operation.header.extensions.encryption ≠ store.policy.encryption then
    .error (.sync .wrongEncryptionProfile)
  (host.validateCausalMetadata operation operation.header.extensions.parents).mapError fun reason =>
    CheckpointError.sync (.causal reason)
  let _ ← (decodeEvent host.toSyncHost cipher operation).mapError CheckpointError.sync
  .ok ()

def checkEntry (operation : Operation) : Except CheckpointError Unit := do
  match ← (host.getOperation store.backend operation.hash).mapError CheckpointError.store with
  | none => .error (historyError "operation pointer has no retained log entry")
  | some indexed =>
    if indexed.hash ≠ operation.hash ∨ indexed.header.encoded ≠ operation.header.encoded ∨
        indexed.body ≠ operation.body then
      .error (historyError "log entry differs from its signed storage identity")
    else .ok ()

def auditRecord (cipher : KnotSyncCipher) (segment : String) (keys : AuditedKeys)
    (record : StoredKnotOperation) : Except CheckpointError AuditedKeys := do
  store.checkSigned host cipher record
  let operation := record.operation
  let log := logKey segment operation
  let pointer := operationKey operation
  let topic := topicKey store.policy.spaceId segment operation
  if log ∈ keys.logs ∨ pointer ∈ keys.operations then
    .error (historyError "contains duplicate storage identities")
  let pointed ← store.get faults pointer
  if pointed ≠ some log.toUTF8 then
    .error (historyError "operation pointer differs from its signed identity")
  let association ← store.get faults topic
  if association ≠ some ByteArray.empty then
    .error (historyError "topic association is missing or noncanonical")
  store.checkEntry host operation
  .ok ⟨insert log keys.logs, insert pointer keys.operations, insert topic keys.topics⟩

def checkpointRecords (cipher : KnotSyncCipher) :
    Except CheckpointError (List StoredKnotOperation) := do
  if cipher.profile ≠ store.policy.encryption then
    .error (.sync .wrongEncryptionProfile)
  let records ← store.loadOperations host
  let segment ← logSegment host
  let keys ← records.foldlM (store.auditRecord host faults cipher segment) ⟨∅, ∅, ∅⟩
  let actualLogs ← store.list faults "log/"
  let actualOperations ← store.list faults "op/"
  let actualTopics ← store.list faults "topic/"
  if actualLogs ≠ keys.logs ∨ actualOperations ≠ keys.operations ∨ actualTopics ≠ keys.topics then
    .error (historyError "is unindexed, missing, or outside this file's space")
  .ok records

section audited

variable {host store faults} {cipher : KnotSyncCipher} {segment : String}

theorem get_eq_ok {key : String} {value : Option ByteArray}
    (read : store.get faults key = .ok value) : store.backend[key]? = value := by
  rw [get] at read
  split at read
  · cases read
  · exact Except.ok.inj read

theorem get_of_found {key : String} {value : Option ByteArray}
    (found : store.backend[key]? = value) : store.get {} key = .ok value :=
  congrArg Except.ok found

theorem list_of_found {start : String} {keys : Finset String}
    (found : (store.keysUnder start).toFinset = keys) : store.list {} start = .ok keys :=
  congrArg Except.ok found

theorem list_eq_ok {start : String} {keys : Finset String}
    (listed : store.list faults start = .ok keys) : keys = (store.keysUnder start).toFinset := by
  rw [list] at listed
  split at listed
  · cases listed
  · exact (Except.ok.inj listed).symm

theorem mem_keysUnder {start key : String} :
    key ∈ store.keysUnder start ↔
      (∃ value, store.backend[key]? = some value) ∧ start.toList <+: key.toList := by
  rw [keysUnder, List.mem_filter, Std.ExtTreeMap.mem_keys, List.isPrefixOf_iff_prefix,
    ← Std.ExtTreeMap.isSome_getElem?_iff_mem, Option.isSome_iff_exists]

def HoldsEntry (host : HistoryHost) (backend : Backend) (key : String) (operation : Operation) :
    Prop :=
  ∃ blob entry, backend[key]? = some blob ∧ host.decodeEntry blob = some entry ∧
    entry.hash = operation.hash ∧ entry.header.encoded = operation.header.encoded ∧
    entry.body = operation.body

structure Signed (host : HistoryHost) (policy : KnotSyncPolicy) (cipher : KnotSyncCipher)
    (record : StoredKnotOperation) : Prop where
  log : record.logId = logId
  valid : host.validateOperation record.operation = .ok ()
  hashed : record.operation.hash = host.headerHash record.operation.header
  space : record.operation.header.extensions.spaceId = policy.spaceId
  profile : record.operation.header.extensions.encryption = policy.encryption
  causal : host.validateCausalMetadata record.operation
    record.operation.header.extensions.parents = .ok ()
  decodes : ∃ event, decodeEvent host.toSyncHost cipher record.operation = .ok event

theorem signed_of_checkSigned {record : StoredKnotOperation}
    (checked : store.checkSigned host cipher record = .ok ()) :
    Signed host store.policy cipher record := by
  simp only [checkSigned, Fallible.refuse_eq_ok_iff, Fallible.bind_eq_ok_iff,
    Fallible.mapError_eq_ok_iff, not_or, not_not] at checked
  obtain ⟨log, _, valid, hashed, ⟨space, profile⟩, _, causal, event, decodes, _⟩ := checked
  exact ⟨log, valid, hashed, space, profile, causal, event, decodes⟩

def Documented (host : HistoryHost) : Prop :=
  ∀ (backend : Backend) (hash : Bytes32) (operation : Operation),
    host.getOperation backend hash = .ok (some operation) →
      ∃ (key : String) (blob : ByteArray), backend["op/" ++ hex32 hash]? = some key.toUTF8 ∧
        backend[key]? = some blob ∧ host.decodeEntry blob = some operation

theorem holdsEntry_of_checkEntry (documented : Documented host) {key : String}
    {operation : Operation} (checked : store.checkEntry host operation = .ok ())
    (pointed : store.backend[operationKey operation]? = some key.toUTF8) :
    HoldsEntry host store.backend key operation := by
  rw [checkEntry, Fallible.bind_eq_ok_iff] at checked
  obtain ⟨found, read, checked⟩ := checked
  rw [Fallible.mapError_eq_ok_iff] at read
  cases found with
  | none => cases checked
  | some indexed =>
    obtain ⟨place, blob, pointer, stored, decoded⟩ := documented _ _ _ read
    have same : place = key := by
      rw [operationKey, pointer, Option.some_inj] at pointed
      exact String.toByteArray_inj.mp pointed
    simp only [ite_eq_right_iff, reduceCtorEq, imp_false, not_or, not_not] at checked
    exact ⟨blob, indexed, same ▸ stored, decoded, checked⟩

structure Stored (host : HistoryHost) (store : RetainedStore) (cipher : KnotSyncCipher)
    (segment : String) (record : StoredKnotOperation) : Prop where
  signed : Signed host store.policy cipher record
  pointer : store.backend[operationKey record.operation]? =
    some (logKey segment record.operation).toUTF8
  association : store.backend[topicKey store.policy.spaceId segment record.operation]? =
    some ByteArray.empty
  entry : HoldsEntry host store.backend (logKey segment record.operation) record.operation

structure Audited (host : HistoryHost) (store : RetainedStore) (cipher : KnotSyncCipher)
    (segment : String) (gone : List StoredKnotOperation) (keys : AuditedKeys) : Prop where
  stored : ∀ record ∈ gone, Stored host store cipher segment record
  logs : ∀ key, key ∈ keys.logs ↔ ∃ record ∈ gone, logKey segment record.operation = key
  operations : ∀ key, key ∈ keys.operations ↔ ∃ record ∈ gone, operationKey record.operation = key
  topics : ∀ key, key ∈ keys.topics ↔
    ∃ record ∈ gone, topicKey store.policy.spaceId segment record.operation = key
  ownLogs : (gone.map fun record => logKey segment record.operation).Nodup
  ownPointers : (gone.map fun record => operationKey record.operation).Nodup

theorem nodup_snoc {gone : List StoredKnotOperation} {record : StoredKnotOperation}
    {name : StoredKnotOperation → String} (own : (gone.map name).Nodup)
    (fresh : ∀ other ∈ gone, name other ≠ name record) : ((gone ++ [record]).map name).Nodup := by
  rw [List.map_append, List.nodup_append]
  refine ⟨own, List.nodup_singleton _, ?_⟩
  intro key member other last
  obtain ⟨earlier, inside, rfl⟩ := List.mem_map.mp member
  rw [List.mem_singleton.mp last]
  exact fresh earlier inside

theorem Audited.step (documented : Documented host) {gone : List StoredKnotOperation}
    {keys next : AuditedKeys} {record : StoredKnotOperation}
    (before : Audited host store cipher segment gone keys)
    (turned : store.auditRecord host faults cipher segment keys record = .ok next) :
    Audited host store cipher segment (gone ++ [record]) next := by
  simp only [auditRecord, Fallible.refuse_eq_ok_iff, Fallible.bind_eq_ok_iff, not_or,
    not_not] at turned
  obtain ⟨_, checked, ⟨freshLog, freshPointer⟩, pointed, readPointer, pointer, topic, readTopic,
    association, _, entry, done⟩ := turned
  cases done
  have located := (get_eq_ok readPointer).trans pointer
  refine ⟨?_, ?_, ?_, ?_, ?_, ?_⟩
  · intro other member
    rcases List.mem_append.mp member with early | last
    · exact before.stored other early
    · rw [List.mem_singleton.mp last]
      exact ⟨signed_of_checkSigned checked, located, (get_eq_ok readTopic).trans association,
        holdsEntry_of_checkEntry documented entry located⟩
  · intro key
    simp [before.logs, or_comm, eq_comm, or_and_right, exists_or]
  · intro key
    simp [before.operations, or_comm, eq_comm, or_and_right, exists_or]
  · intro key
    simp [before.topics, or_comm, eq_comm, or_and_right, exists_or]
  · refine nodup_snoc before.ownLogs fun other member same => freshLog ?_
    exact (before.logs _).mpr ⟨other, member, same⟩
  · refine nodup_snoc before.ownPointers fun other member same => freshPointer ?_
    exact (before.operations _).mpr ⟨other, member, same⟩

/-- What an audit that succeeds says of the storage: every key under the three indexes belongs to a
record, and every record has its own. -/
structure Accounted (host : HistoryHost) (store : RetainedStore) (cipher : KnotSyncCipher)
    (segment : String) (records : List StoredKnotOperation) : Prop where
  stored : ∀ record ∈ records, Stored host store cipher segment record
  logs : ∀ key, key ∈ store.keysUnder "log/" ↔
    ∃ record ∈ records, logKey segment record.operation = key
  operations : ∀ key, key ∈ store.keysUnder "op/" ↔
    ∃ record ∈ records, operationKey record.operation = key
  topics : ∀ key, key ∈ store.keysUnder "topic/" ↔
    ∃ record ∈ records, topicKey store.policy.spaceId segment record.operation = key
  ownLogs : (records.map fun record => logKey segment record.operation).Nodup
  ownPointers : (records.map fun record => operationKey record.operation).Nodup

theorem accounted_of_ok (documented : Documented host) {records : List StoredKnotOperation}
    (audited : store.checkpointRecords host faults cipher = .ok records) :
    ∃ segment, logSegment host = .ok segment ∧
      Accounted host store cipher segment records := by
  simp only [checkpointRecords, Fallible.refuse_eq_ok_iff, Fallible.bind_eq_ok_iff, not_or,
    not_not] at audited
  obtain ⟨_, loaded, _, segment, named, keys, walked, logs, listLogs, pointers, listPointers,
    topics, listTopics, ⟨sameLogs, samePointers, sameTopics⟩, done⟩ := audited
  cases done
  have first : Audited host store cipher segment [] ⟨∅, ∅, ∅⟩ :=
    ⟨List.forall_mem_nil _, by simp, by simp, by simp, List.nodup_nil, List.nodup_nil⟩
  have whole := @Fallible.foldlM_builds _ _ _ _ (Audited host store cipher segment)
    (fun _ _ _ _ before turned => before.step documented turned) _ _ _ first walked
  refine ⟨segment, named, whole.stored, ?_, ?_, ?_, whole.ownLogs, whole.ownPointers⟩
  · intro key
    rw [← whole.logs, ← sameLogs, list_eq_ok listLogs, List.mem_toFinset]
  · intro key
    rw [← whole.operations, ← samePointers, list_eq_ok listPointers, List.mem_toFinset]
  · intro key
    rw [← whole.topics, ← sameTopics, list_eq_ok listTopics, List.mem_toFinset]

end audited

section tampering

variable {host : HistoryHost} {policy : KnotSyncPolicy} {backend other : Backend}
  {cipher : KnotSyncCipher} {segment : String} {records others : List StoredKnotOperation}

theorem operationKey_inj {one two : Operation} (same : operationKey one = operationKey two) :
    one.hash = two.hash := by
  have bytes := congrArg String.toList same
  rw [operationKey, operationKey, String.toList_append, String.toList_append] at bytes
  exact hex32_inj _ _ (String.toList_inj.mp (List.append_cancel_left bytes))

theorem author_of_logKey {one two : Operation} (same : logKey segment one = logKey segment two) :
    one.author = two.author := by
  have bytes := congrArg String.toList same
  simp only [logKey, String.toList_append, List.append_assoc] at bytes
  have rest := List.append_cancel_left bytes
  have sizes : (hex32 one.author).toList.length = (hex32 two.author).toList.length := by
    rw [length_hex32, length_hex32]
  exact hex32_inj _ _ (String.toList_inj.mp (List.append_inj rest sizes).1)

def SameUnder (start : String) (one two : Backend) : Prop :=
  ∀ key : String, start.toList <+: key.toList → one[key]? = two[key]?

theorem SameUnder.symm {start : String} (same : SameUnder start backend other) :
    SameUnder start other backend :=
  fun key starts => (same key starts).symm

theorem SameUnder.keys {start key : String} (same : SameUnder start backend other) :
    key ∈ keysUnder ⟨policy, backend⟩ start ↔ key ∈ keysUnder ⟨policy, other⟩ start := by
  rw [mem_keysUnder, mem_keysUnder]
  exact and_congr_left fun starts => by rw [same key starts]

theorem Accounted.logs_of_operations
    (first : Accounted host ⟨policy, backend⟩ cipher segment records)
    (second : Accounted host ⟨policy, other⟩ cipher segment others)
    (same : SameUnder "op/" backend other) {record : StoredKnotOperation}
    (member : record ∈ records) :
    ∃ twin ∈ others, logKey segment twin.operation = logKey segment record.operation ∧
      twin.operation.hash = record.operation.hash := by
  have listed := (first.operations _).mpr ⟨record, member, rfl⟩
  obtain ⟨twin, inside, named⟩ := (second.operations _).mp (same.keys.mp listed)
  have one := (first.stored record member).pointer
  have two := (second.stored twin inside).pointer
  rw [named] at two
  have pointed := (same _ (mem_keysUnder.mp listed).2).symm.trans one
  exact ⟨twin, inside, String.toByteArray_inj.mp (Option.some.inj (two.symm.trans pointed)),
    operationKey_inj named⟩

theorem Accounted.operations_of_logs
    (first : Accounted host ⟨policy, backend⟩ cipher segment records)
    (second : Accounted host ⟨policy, other⟩ cipher segment others)
    (same : SameUnder "log/" backend other) {record : StoredKnotOperation}
    (member : record ∈ records) :
    ∃ twin ∈ others, logKey segment twin.operation = logKey segment record.operation ∧
      operationKey twin.operation = operationKey record.operation := by
  have listed := (first.logs _).mpr ⟨record, member, rfl⟩
  obtain ⟨twin, inside, named⟩ := (second.logs _).mp (same.keys.mp listed)
  obtain ⟨blob, entry, held, decoded, hashed, _⟩ := (first.stored record member).entry
  obtain ⟨again, indexed, holds, decodes, hashes, _⟩ := (second.stored twin inside).entry
  have place := same _ (mem_keysUnder.mp listed).2
  rw [named] at holds
  have blobs : again = blob :=
    Option.some.inj (holds.symm.trans (place.symm.trans held))
  have entries : indexed = entry :=
    Option.some.inj (decodes.symm.trans (blobs ▸ decoded))
  refine ⟨twin, inside, named, ?_⟩
  rw [operationKey, operationKey, ← hashes, ← hashed, entries]

theorem Accounted.lookup_operation
    (first : Accounted host ⟨policy, backend⟩ cipher segment records)
    (second : Accounted host ⟨policy, other⟩ cipher segment others)
    (same : SameUnder "log/" backend other) {key : String} {value : ByteArray}
    (starts : "op/".toList <+: key.toList) (found : backend[key]? = some value) :
    other[key]? = some value := by
  obtain ⟨record, member, rfl⟩ :=
    (first.operations key).mp (mem_keysUnder.mpr ⟨⟨value, found⟩, starts⟩)
  obtain ⟨twin, inside, logs, pointers⟩ := first.operations_of_logs second same member
  rw [← pointers, (second.stored twin inside).pointer, logs,
    ← (first.stored record member).pointer, found]

theorem Accounted.lookup_topic
    (first : Accounted host ⟨policy, backend⟩ cipher segment records)
    (second : Accounted host ⟨policy, other⟩ cipher segment others)
    (same : SameUnder "log/" backend other) {key : String} {value : ByteArray}
    (starts : "topic/".toList <+: key.toList) (found : backend[key]? = some value) :
    other[key]? = some value := by
  obtain ⟨record, member, rfl⟩ :=
    (first.topics key).mp (mem_keysUnder.mpr ⟨⟨value, found⟩, starts⟩)
  obtain ⟨twin, inside, logs, _⟩ := first.operations_of_logs second same member
  have topics : topicKey policy.spaceId segment twin.operation =
      topicKey policy.spaceId segment record.operation := by
    rw [topicKey, topicKey, author_of_logKey logs]
  have empty := (second.stored twin inside).association
  have before := (first.stored record member).association
  rw [topics] at empty
  exact empty.trans (before.symm.trans found)

theorem Accounted.sameIndexes
    (first : Accounted host ⟨policy, backend⟩ cipher segment records)
    (second : Accounted host ⟨policy, other⟩ cipher segment others)
    (same : SameUnder "log/" backend other) :
    SameUnder "op/" backend other ∧ SameUnder "topic/" backend other := by
  constructor
  · intro key starts
    refine Option.ext fun value => ?_
    exact ⟨first.lookup_operation second same starts,
      second.lookup_operation first same.symm starts⟩
  · intro key starts
    refine Option.ext fun value => ?_
    exact ⟨first.lookup_topic second same starts, second.lookup_topic first same.symm starts⟩

theorem Accounted.sameLogKeys
    (first : Accounted host ⟨policy, backend⟩ cipher segment records)
    (second : Accounted host ⟨policy, other⟩ cipher segment others)
    (same : SameUnder "op/" backend other) {key : String} :
    key ∈ keysUnder ⟨policy, backend⟩ "log/" ↔ key ∈ keysUnder ⟨policy, other⟩ "log/" := by
  rw [first.logs, second.logs]
  constructor
  · rintro ⟨record, member, rfl⟩
    obtain ⟨twin, inside, logs, _⟩ := first.logs_of_operations second same member
    exact ⟨twin, inside, logs⟩
  · rintro ⟨twin, inside, rfl⟩
    obtain ⟨record, member, logs, _⟩ := second.logs_of_operations first same.symm inside
    exact ⟨record, member, logs⟩

theorem Accounted.sameEntries
    (first : Accounted host ⟨policy, backend⟩ cipher segment records)
    (second : Accounted host ⟨policy, other⟩ cipher segment others)
    (same : SameUnder "op/" backend other) {one two : StoredKnotOperation}
    (member : one ∈ records) (another : two ∈ records)
    (moved : other[logKey segment one.operation]? = backend[logKey segment two.operation]?) :
    logKey segment one.operation = logKey segment two.operation := by
  obtain ⟨twin, inside, logs, hashed⟩ := first.logs_of_operations second same member
  obtain ⟨blob, entry, held, decoded, hash, _⟩ := (second.stored twin inside).entry
  obtain ⟨again, indexed, holds, decodes, hashes, _⟩ := (first.stored two another).entry
  rw [logs, moved] at held
  have blobs : again = blob := Option.some.inj (holds.symm.trans held)
  have entries : indexed = entry :=
    Option.some.inj (decodes.symm.trans (blobs ▸ decoded))
  have hashSame : one.operation.hash = two.operation.hash := by
    rw [← hashed, ← hash, ← hashes, entries]
  have pointers : operationKey one.operation = operationKey two.operation :=
    congrArg (fun hash => "op/" ++ hex32 hash) hashSame
  have pointed := (first.stored one member).pointer
  rw [pointers, (first.stored two another).pointer, Option.some_inj] at pointed
  exact (String.toByteArray_inj.mp pointed).symm

theorem sameUnder_erase {start key : String} (apart : ¬ start.toList <+: key.toList) :
    SameUnder start backend (backend.erase key) := by
  intro place starts
  rw [Std.ExtTreeMap.getElem?_erase, if_neg]
  intro same
  exact apart (Std.LawfulEqOrd.eq_of_compare same ▸ starts)

theorem sameUnder_insert {start key : String} {value : ByteArray}
    (apart : ¬ start.toList <+: key.toList) :
    SameUnder start backend (backend.insert key value) := by
  intro place starts
  rw [Std.ExtTreeMap.getElem?_insert, if_neg]
  intro same
  exact apart (Std.LawfulEqOrd.eq_of_compare same ▸ starts)

def Leads (key : String) : Prop := "op/".toList <+: key.toList ∨ "topic/".toList <+: key.toList

theorem Leads.apart {key : String} (leads : Leads key) : ¬ "log/".toList <+: key.toList := by
  rintro ⟨after, whole⟩
  rcases leads with ⟨rest, same⟩ | ⟨rest, same⟩
  · have heads : some 'o' = some 'l' := congrArg List.head? (same.trans whole.symm)
    exact absurd heads (by decide)
  · have heads : some 't' = some 'l' := congrArg List.head? (same.trans whole.symm)
    exact absurd heads (by decide)

theorem log_apart {key : String} (starts : "log/".toList <+: key.toList) :
    ¬ "op/".toList <+: key.toList :=
  fun pointer => (show Leads key from .inl pointer).apart starts

def Refused (host : HistoryHost) (policy : KnotSyncPolicy) (backend : Backend)
    (cipher : KnotSyncCipher) : Prop :=
  ∀ faults, ∃ error, checkpointRecords host ⟨policy, backend⟩ faults cipher = .error error

theorem refused_of (documented : Documented host) (named : logSegment host = .ok segment)
    (impossible : ∀ others, ¬ Accounted host ⟨policy, other⟩ cipher segment others) :
    Refused host policy other cipher := by
  intro faults
  cases audited : checkpointRecords host ⟨policy, other⟩ faults cipher with
  | error error => exact ⟨error, rfl⟩
  | ok others =>
    obtain ⟨again, same, accounted⟩ := accounted_of_ok documented audited
    rw [named, Except.ok.injEq] at same
    subst same
    exact absurd accounted (impossible others)

/-- Taking a key away from an audited store, adding one, exchanging two log entries or repointing an
operation makes the audit fail. -/
structure FailsClosed (host : HistoryHost) (policy : KnotSyncPolicy) (backend : Backend)
    (cipher : KnotSyncCipher) : Prop where
  removed : ∀ key value, backend[key]? = some value →
    "log/".toList <+: key.toList ∨ Leads key → Refused host policy (backend.erase key) cipher
  added : ∀ key value, backend[key]? = none →
    "log/".toList <+: key.toList ∨ Leads key → Refused host policy (backend.insert key value) cipher
  exchanged : ∀ one two first second, "log/".toList <+: one.toList → "log/".toList <+: two.toList →
    one ≠ two → backend[one]? = some first → backend[two]? = some second →
      Refused host policy ((backend.insert one second).insert two first) cipher
  repointed : ∀ key old value, Leads key → backend[key]? = some old → value ≠ old →
    Refused host policy (backend.insert key value) cipher

section refusals

variable (documented : Documented host) (named : logSegment host = .ok segment)
  (accounted : Accounted host ⟨policy, backend⟩ cipher segment records)

include documented named accounted

theorem Accounted.refuses_indexes (same : SameUnder "log/" backend other) {key : String}
    (leads : Leads key) (changed : backend[key]? ≠ other[key]?) :
    Refused host policy other cipher := by
  refine refused_of documented named fun others second => changed ?_
  have indexes := accounted.sameIndexes second same
  rcases leads with pointer | topic
  · exact indexes.1 key pointer
  · exact indexes.2 key topic

theorem Accounted.refuses_logs (same : SameUnder "op/" backend other) (key : String)
    (changed : ¬ (key ∈ keysUnder ⟨policy, backend⟩ "log/" ↔
      key ∈ keysUnder ⟨policy, other⟩ "log/")) : Refused host policy other cipher :=
  refused_of documented named fun _ second => changed (accounted.sameLogKeys second same)

theorem Accounted.refuses_exchange {one two : String} {first second : ByteArray}
    (starts : "log/".toList <+: one.toList) (begins : "log/".toList <+: two.toList)
    (apart : one ≠ two) (held : backend[one]? = some first) (holds : backend[two]? = some second) :
    Refused host policy ((backend.insert one second).insert two first) cipher := by
  obtain ⟨record, member, rfl⟩ :=
    (accounted.logs one).mp (mem_keysUnder.mpr ⟨⟨first, held⟩, starts⟩)
  obtain ⟨another, inside, rfl⟩ :=
    (accounted.logs two).mp (mem_keysUnder.mpr ⟨⟨second, holds⟩, begins⟩)
  have same : SameUnder "op/" backend ((backend.insert (logKey segment record.operation)
      second).insert (logKey segment another.operation) first) :=
    fun key pointer => (sameUnder_insert (log_apart starts) key pointer).trans
      (sameUnder_insert (log_apart begins) key pointer)
  refine refused_of documented named fun others later => apart ?_
  refine accounted.sameEntries later same member inside ?_
  rw [holds, Std.ExtTreeMap.getElem?_insert, if_neg, Std.ExtTreeMap.getElem?_insert_self]
  exact fun equal => apart (Std.LawfulEqOrd.eq_of_compare equal).symm

theorem Accounted.failsClosed : FailsClosed host policy backend cipher where
  removed := by
    intro key value found kind
    rcases kind with log | leads
    · refine accounted.refuses_logs documented named (sameUnder_erase (log_apart log)) key ?_
      rw [mem_keysUnder, mem_keysUnder, Std.ExtTreeMap.getElem?_erase_self, and_iff_left log,
        and_iff_left log]
      simp [found]
    · refine accounted.refuses_indexes documented named (sameUnder_erase leads.apart) leads ?_
      rw [found, Std.ExtTreeMap.getElem?_erase_self]
      exact Option.some_ne_none value
  added := by
    intro key value absent kind
    rcases kind with log | leads
    · refine accounted.refuses_logs documented named (sameUnder_insert (log_apart log)) key ?_
      rw [mem_keysUnder, mem_keysUnder, Std.ExtTreeMap.getElem?_insert_self, and_iff_left log,
        and_iff_left log]
      simp [absent]
    · refine accounted.refuses_indexes documented named (sameUnder_insert leads.apart) leads ?_
      rw [absent, Std.ExtTreeMap.getElem?_insert_self]
      exact (Option.some_ne_none value).symm
  exchanged := fun one two first second starts begins apart held holds =>
    accounted.refuses_exchange documented named starts begins apart held holds
  repointed := by
    intro key old value leads found changed
    refine accounted.refuses_indexes documented named (sameUnder_insert leads.apart) leads ?_
    rw [found, Std.ExtTreeMap.getElem?_insert_self]
    exact fun same => changed (Option.some.inj same).symm

end refusals

/-- An audit that succeeds accounts for every key and every entry, so it fails once any of them is
taken away, added, exchanged or repointed. -/
theorem checkpoint_records_fail_closed (host : HistoryHost) (documented : Documented host)
    (policy : KnotSyncPolicy) (backend : Backend) (faults : RetainedFaults)
    (cipher : KnotSyncCipher) (records : List StoredKnotOperation)
    (audited : checkpointRecords host ⟨policy, backend⟩ faults cipher = .ok records) :
    (∃ segment, logSegment host = .ok segment ∧
      Accounted host ⟨policy, backend⟩ cipher segment records) ∧
    FailsClosed host policy backend cipher := by
  obtain ⟨segment, named, accounted⟩ := accounted_of_ok documented audited
  exact ⟨⟨segment, named, accounted⟩, accounted.failsClosed documented named⟩

end tampering

section entry

def soleOperation : Operation where
  hash := .filled 10
  header := {
    verifyingKey := .filled 10
    seqNum := 0
    backlink := none
    extensions := {
      spaceId := .filled 0
      encryption := .personalVaultV1
      parents := []
      assertedAtMs := none }
    encoded := .empty }
  body := some ⟨#[0]⟩

def soleEntry (blob : ByteArray) : Option Operation :=
  if blob = ⟨#[1]⟩ then some soleOperation else none

def soleLogs : Std.ExtTreeMap Bytes32 (List Nat) :=
  (∅ : Std.ExtTreeMap Bytes32 (List Nat)).insert (.filled 10) [0]

def soleFollow (backend : Backend) (hash : Bytes32) : Option Operation :=
  (backend["op/" ++ hex32 hash]?).bind fun pointer =>
    (String.fromUTF8? pointer).bind fun key => (backend[key]?).bind soleEntry

def soleHost : HistoryHost where
  toSyncHost := SyncHost.sample (.ofPairs []) [.put (.sample "note")]
  encodeCbor value := .ok ⟨#[value.toUInt8]⟩
  validateOperation _ := .ok ()
  resolve backend space :=
    .ok (if topicKey space "00" soleOperation ∈ backend then soleLogs else ∅)
  getLogEntries backend _ _ :=
    .ok ((backend[logKey "00" soleOperation]?.bind soleEntry).map List.singleton)
  getOperation backend hash := .ok (soleFollow backend hash)
  decodeEntry := soleEntry

def solePolicy : KnotSyncPolicy := (KnotSyncStore.sample []).policy

def soleLog : String := logKey "00" soleOperation

def solePointer : String := operationKey soleOperation

def soleTopic : String := topicKey (.filled 0) "00" soleOperation

def soleBackend : Backend :=
  (((∅ : Backend).insert soleTopic .empty).insert solePointer soleLog.toUTF8).insert soleLog ⟨#[1]⟩

theorem compare_ne_eq {one two : String} (apart : one.toList.head? ≠ two.toList.head?) :
    ¬ compare one two = .eq :=
  fun same => apart (congrArg (fun text => text.toList.head?) (Std.LawfulEqOrd.eq_of_compare same))

theorem head_soleLog : soleLog.toList.head? = some 'l' := by
  simp [soleLog, logKey, String.toList_append]

theorem head_solePointer : solePointer.toList.head? = some 'o' := by
  simp [solePointer, operationKey, String.toList_append]

theorem head_soleTopic : soleTopic.toList.head? = some 't' := by
  simp [soleTopic, topicKey, String.toList_append]

theorem sole_log : soleBackend[soleLog]? = some ⟨#[1]⟩ := by
  rw [soleBackend, Std.ExtTreeMap.getElem?_insert_self]

theorem sole_pointer : soleBackend[operationKey soleOperation]? = some soleLog.toUTF8 := by
  rw [← solePointer]
  have apart := @compare_ne_eq soleLog solePointer
    (by simp [head_soleLog, head_solePointer])
  rw [soleBackend, Std.ExtTreeMap.getElem?_insert, if_neg apart,
    Std.ExtTreeMap.getElem?_insert_self]

theorem sole_topic : soleBackend[soleTopic]? = some .empty := by
  have apart := @compare_ne_eq soleLog soleTopic
    (by simp [head_soleLog, head_soleTopic])
  have aside := @compare_ne_eq solePointer soleTopic
    (by simp [head_solePointer, head_soleTopic])
  rw [soleBackend, Std.ExtTreeMap.getElem?_insert, if_neg apart, Std.ExtTreeMap.getElem?_insert,
    if_neg aside, Std.ExtTreeMap.getElem?_insert_self]

theorem head_of_starts {start key : String} {head : Char} (starts : start.toList <+: key.toList)
    (first : start.toList.head? = some head) : key.toList.head? = some head := by
  obtain ⟨rest, whole⟩ := starts
  rw [← whole, List.head?_append, first]
  rfl

theorem sole_keys {start own : String} {head : Char}
    (listed : own ∈ [soleLog, solePointer, soleTopic]) (starts : start.toList <+: own.toList)
    (first : start.toList.head? = some head)
    (alone : ∀ key ∈ [soleLog, solePointer, soleTopic], key.toList.head? = some head → key = own) :
    (keysUnder ⟨solePolicy, soleBackend⟩ start).toFinset = {own} := by
  have held : ∀ key, key ∈ soleBackend ↔ key ∈ [soleLog, solePointer, soleTopic] := by
    intro key
    simp only [soleBackend, Std.ExtTreeMap.mem_insert, Std.LawfulEqCmp.compare_eq_iff_eq,
      Std.ExtTreeMap.not_mem_empty, or_false, List.mem_cons, List.not_mem_nil]
    rw [@eq_comm _ soleLog, @eq_comm _ solePointer, @eq_comm _ soleTopic]
  ext key
  rw [List.mem_toFinset, mem_keysUnder, ← Option.isSome_iff_exists,
    Std.ExtTreeMap.isSome_getElem?_iff_mem, held, Finset.mem_singleton]
  constructor
  · rintro ⟨inside, begins⟩
    exact alone key inside (head_of_starts begins first)
  · rintro rfl
    exact ⟨listed, starts⟩

theorem sole_logs : (keysUnder ⟨solePolicy, soleBackend⟩ "log/").toFinset = {soleLog} := by
  refine sole_keys (by simp) ?_ (by decide : _ = some 'l') ?_
  · simp only [soleLog, logKey, String.toList_append, List.append_assoc, List.prefix_append]
  · simp [head_soleLog, head_solePointer, head_soleTopic]

theorem sole_pointers : (keysUnder ⟨solePolicy, soleBackend⟩ "op/").toFinset = {solePointer} := by
  refine sole_keys (by simp) ?_ (by decide : _ = some 'o') ?_
  · simp only [solePointer, operationKey, String.toList_append, List.prefix_append]
  · simp [head_soleLog, head_solePointer, head_soleTopic]

theorem sole_topics : (keysUnder ⟨solePolicy, soleBackend⟩ "topic/").toFinset = {soleTopic} := by
  refine sole_keys (by simp) ?_ (by decide : _ = some 't') ?_
  · simp only [soleTopic, topicKey, String.toList_append, List.append_assoc, List.prefix_append]
  · simp [head_soleLog, head_solePointer, head_soleTopic]

theorem sole_entries :
    soleHost.getLogEntries soleBackend (.filled 10) 0 = .ok (some [soleOperation]) := by
  have found : soleBackend[logKey "00" soleOperation]? = some ⟨#[1]⟩ := sole_log
  simp only [soleHost, found]
  rfl

theorem sole_resolved : soleHost.resolve soleBackend solePolicy.spaceId = .ok soleLogs := by
  have space : solePolicy.spaceId = .filled 0 := rfl
  have held : topicKey (.filled 0) "00" soleOperation ∈ soleBackend := by
    rw [← Std.ExtTreeMap.isSome_getElem?_iff_mem]
    exact Option.isSome_iff_exists.mpr ⟨_, sole_topic⟩
  simp only [space, soleHost, if_pos held]

theorem sole_listed : soleLogs.toList = [(.filled 10, [0])] := rfl

theorem sole_loadLog : loadLog soleHost ⟨solePolicy, soleBackend⟩ (.filled 10) 0 =
    .ok [⟨soleOperation, 0⟩] := by
  rw [loadLog, sole_entries]
  rfl

theorem sole_loaded : loadOperations soleHost ⟨solePolicy, soleBackend⟩ =
    .ok [⟨soleOperation, 0⟩] := by
  refine Fallible.bind_eq_ok_iff.mpr ⟨soleLogs, Fallible.mapError_eq_ok_iff.mpr sole_resolved, ?_⟩
  refine Fallible.bind_eq_ok_iff.mpr ⟨[[⟨soleOperation, 0⟩]], ?_, rfl⟩
  rw [sole_listed, Fallible.mapM_eq_ok_iff]
  refine .cons ?_ .nil
  refine Fallible.bind_eq_ok_iff.mpr ⟨[[⟨soleOperation, 0⟩]], ?_, rfl⟩
  have once : [0].dedup = [0] := by decide
  rw [List.mergeSort_singleton, once, Fallible.mapM_eq_ok_iff]
  exact .cons sole_loadLog .nil

theorem sole_checkEntry :
    checkEntry soleHost ⟨solePolicy, soleBackend⟩ soleOperation = .ok () := by
  have decoded : String.fromUTF8? soleLog.toUTF8 = some soleLog := dif_pos soleLog.isValidUTF8
  have read : soleFollow soleBackend soleOperation.hash = some soleOperation := by
    rw [soleFollow, ← operationKey, sole_pointer, Option.bind_some, decoded, Option.bind_some,
      sole_log, Option.bind_some]
    rfl
  have followed : (soleHost.getOperation soleBackend soleOperation.hash).mapError
      CheckpointError.store = .ok (some soleOperation) :=
    Fallible.mapError_eq_ok_iff.mpr (congrArg Except.ok read)
  refine Fallible.bind_eq_ok_iff.mpr ⟨some soleOperation, followed, ?_⟩
  exact if_neg (by simp)

theorem sole_turned : auditRecord soleHost ⟨solePolicy, soleBackend⟩ {} (.personal .sample) "00"
    ⟨∅, ∅, ∅⟩ ⟨soleOperation, 0⟩ = .ok ⟨{soleLog}, {solePointer}, {soleTopic}⟩ := by
  have signed : checkSigned soleHost ⟨solePolicy, soleBackend⟩ (.personal .sample)
      ⟨soleOperation, 0⟩ = .ok () := rfl
  have topic : soleBackend[topicKey solePolicy.spaceId "00" soleOperation]? = some .empty :=
    sole_topic
  refine Fallible.bind_eq_ok_iff.mpr ⟨(), signed, ?_⟩
  rw [Fallible.refuse_eq_ok_iff]
  refine ⟨by simp, Fallible.bind_eq_ok_iff.mpr ⟨some soleLog.toUTF8, get_of_found sole_pointer, ?_⟩⟩
  rw [Fallible.refuse_eq_ok_iff]
  refine ⟨by rw [soleLog, not_not],
    Fallible.bind_eq_ok_iff.mpr ⟨some .empty, get_of_found topic, ?_⟩⟩
  rw [Fallible.refuse_eq_ok_iff]
  exact ⟨by simp, Fallible.bind_eq_ok_iff.mpr ⟨(), sole_checkEntry, rfl⟩⟩

theorem sole_audited : checkpointRecords soleHost ⟨solePolicy, soleBackend⟩ {}
    (.personal .sample) = .ok [⟨soleOperation, 0⟩] := by
  have walked : [(⟨soleOperation, 0⟩ : StoredKnotOperation)].foldlM (auditRecord soleHost
      ⟨solePolicy, soleBackend⟩ {} (.personal .sample) "00") ⟨∅, ∅, ∅⟩ =
        .ok ⟨{soleLog}, {solePointer}, {soleTopic}⟩ := by
    rw [List.foldlM_cons, sole_turned]
    rfl
  have named : logSegment soleHost = .ok "00" := rfl
  have profile : ¬ (KnotSyncCipher.personal .sample).profile ≠ solePolicy.encryption :=
    not_not.mpr rfl
  rw [checkpointRecords, Fallible.refuse_eq_ok_iff]
  refine ⟨profile, Fallible.bind_eq_ok_iff.mpr ⟨_, sole_loaded, ?_⟩⟩
  refine Fallible.bind_eq_ok_iff.mpr ⟨_, named, Fallible.bind_eq_ok_iff.mpr ⟨_, walked, ?_⟩⟩
  refine Fallible.bind_eq_ok_iff.mpr ⟨_, list_of_found sole_logs, ?_⟩
  refine Fallible.bind_eq_ok_iff.mpr ⟨_, list_of_found sole_pointers, ?_⟩
  refine Fallible.bind_eq_ok_iff.mpr ⟨_, list_of_found sole_topics, ?_⟩
  rw [Fallible.refuse_eq_ok_iff]
  exact ⟨by simp, rfl⟩

theorem soleHost_documented : Documented soleHost := by
  intro backend hash operation read
  have followed : soleFollow backend hash = some operation := Except.ok.inj read
  obtain ⟨pointer, found, followed⟩ := Option.bind_eq_some_iff.mp followed
  obtain ⟨key, decoded, followed⟩ := Option.bind_eq_some_iff.mp followed
  obtain ⟨blob, held, entry⟩ := Option.bind_eq_some_iff.mp followed
  exact ⟨key, blob, by rw [found, toUTF8_of_fromUTF8 decoded], held, entry⟩

theorem checkpoint_records_fail_closed_sole :
    (∃ segment, logSegment soleHost = .ok segment ∧ Accounted soleHost ⟨solePolicy, soleBackend⟩
      (.personal .sample) segment [⟨soleOperation, 0⟩]) ∧
    FailsClosed soleHost solePolicy soleBackend (.personal .sample) :=
  checkpoint_records_fail_closed soleHost soleHost_documented solePolicy soleBackend {}
    (.personal .sample) [⟨soleOperation, 0⟩] sole_audited

end entry

end RetainedStore

end KnotEditor
