import KnotEditor.Sync.EpochPruningSafety

/-! The tail of a checkpoint. Every log only grows at its end, so what lies behind the head a
checkpoint names is what came after the checkpoint was built. -/

namespace KnotEditor

open Fallible KeyedCollections

def logNumbers (records : List StoredKnotOperation) (log : LocalStore.HeadKey) : List Nat :=
  (records.filter fun record => decide (LocalStore.headKey record = log)).map fun record =>
    record.operation.header.seqNum.toNat

/-- Every log numbers its operations without a gap, and has only been appended to since. -/
def LogsAppended (earlier added : List StoredKnotOperation) : Prop :=
  ∀ log, ∃ start count more,
    (logNumbers earlier log).Perm (List.range' start count) ∧
      (logNumbers (earlier ++ added) log).Perm (List.range' start (count + more))

section heads

variable {records earlier added : List StoredKnotOperation} {record old : StoredKnotOperation}
variable {head : KnotAuthorHead} {log : LocalStore.HeadKey}

theorem LogsAppended.later (logs : LogsAppended earlier added) (new : record ∈ added)
    (held : old ∈ earlier) (same : LocalStore.headKey old = LocalStore.headKey record) :
    old.operation.header.seqNum < record.operation.header.seqNum := by
  obtain ⟨start, count, more, before, after⟩ := logs (LocalStore.headKey record)
  have split : logNumbers (earlier ++ added) (LocalStore.headKey record) =
      logNumbers earlier (LocalStore.headKey record) ++
        logNumbers added (LocalStore.headKey record) := by
    rw [logNumbers, List.filter_append, List.map_append]
    rfl
  rw [split, ← List.range'_append_1] at after
  have rest := (List.perm_append_left_iff _).mp ((before.symm.append_right _).trans after)
  have oldNumber : old.operation.header.seqNum.toNat ∈ List.range' start count := by
    refine before.mem_iff.mp (List.mem_map_of_mem (List.mem_filter.mpr ⟨held, ?_⟩))
    rw [decide_eq_true_eq]
    exact same
  have newNumber : record.operation.header.seqNum.toNat ∈ List.range' (start + count) more := by
    refine rest.mem_iff.mp (List.mem_map_of_mem (List.mem_filter.mpr ⟨new, ?_⟩))
    rw [decide_eq_true_eq]
  rw [List.mem_range'_1] at oldNumber newNumber
  rw [UInt32.lt_iff_toNat_lt]
  omega

structure HeadsCover (heads : Std.ExtTreeMap LocalStore.HeadKey KnotAuthorHead)
    (records : List StoredKnotOperation) : Prop where
  filed : ∀ (log : LocalStore.HeadKey) (head : KnotAuthorHead), heads[log]? = some head →
    toLex (head.author, head.logId) = log
  furthest : ∀ record ∈ records, ∃ head, heads[LocalStore.headKey record]? = some head ∧
    record.operation.header.seqNum ≤ head.seqNum

theorem headsCover_insert {heads : Std.ExtTreeMap LocalStore.HeadKey KnotAuthorHead}
    (covers : HeadsCover heads records) (last : StoredKnotOperation)
    (further : ∀ head : KnotAuthorHead, heads[LocalStore.headKey last]? = some head →
      head.seqNum ≤ last.operation.header.seqNum) :
    HeadsCover (heads.insert (LocalStore.headKey last) (LocalStore.authorHead last))
      (records ++ [last]) := by
  constructor
  · intro log head found
    by_cases same : LocalStore.headKey last = log
    · subst same
      rw [Std.ExtTreeMap.getElem?_insert_self] at found
      cases found
      rfl
    · rw [getElem?_insert_of_ne _ same] at found
      exact covers.filed log head found
  · intro record member
    by_cases same : LocalStore.headKey last = LocalStore.headKey record
    · rw [← same, Std.ExtTreeMap.getElem?_insert_self]
      refine ⟨_, rfl, ?_⟩
      rcases List.mem_append.mp member with held | new
      · obtain ⟨head, found, bound⟩ := covers.furthest record held
        rw [← same] at found
        exact UInt32.le_trans bound (further head found)
      · rw [List.mem_singleton.mp new]
        exact UInt32.le_refl _
    · rw [getElem?_insert_of_ne _ same]
      rcases List.mem_append.mp member with held | new
      · exact covers.furthest record held
      · exact absurd (congrArg LocalStore.headKey (List.mem_singleton.mp new).symm) same

theorem headsCover_insertHead {heads : Std.ExtTreeMap LocalStore.HeadKey KnotAuthorHead}
    (covers : HeadsCover heads records) (last : StoredKnotOperation) :
    HeadsCover (LocalStore.insertHead heads last) (records ++ [last]) := by
  unfold LocalStore.insertHead
  split
  next none_ =>
    refine headsCover_insert covers last fun head found => ?_
    rw [none_] at found
    cases found
  next current found =>
    split
    next below =>
      refine headsCover_insert covers last fun head other => ?_
      cases found.symm.trans other
      exact UInt32.le_of_lt below
    next above =>
      refine ⟨covers.filed, fun record member => ?_⟩
      rcases List.mem_append.mp member with held | new
      · exact covers.furthest record held
      · rw [List.mem_singleton.mp new]
        exact ⟨current, found, UInt32.not_lt.mp above⟩

theorem headsCover_heads (records : List StoredKnotOperation) :
    HeadsCover (records.foldl LocalStore.insertHead ∅) records := by
  induction records using List.reverseRecOn with
  | nil =>
    refine ⟨fun log head found => ?_, List.forall_mem_nil _⟩
    simp at found
  | append_singleton records last ih =>
    rw [List.foldl_append, List.foldl_cons, List.foldl_nil]
    exact headsCover_insertHead ih last

theorem not_inTail_of_heads {checkpoint : KnotProjectionCheckpoint}
    (heads : checkpoint.heads = LocalStore.authorHeads records) (member : record ∈ records) :
    checkpoint.inTail record = false := by
  obtain ⟨own, found, bound⟩ := (headsCover_heads records).furthest record member
  have listed : own ∈ checkpoint.heads := by
    rw [heads, LocalStore.authorHeads, mem_values_iff]
    exact ⟨_, found⟩
  have filed := (headsCover_heads records).filed _ _ found
  unfold KnotProjectionCheckpoint.inTail
  split
  next none_ =>
    have missing := Option.map_eq_none_iff.mp none_
    rw [List.find?_eq_none] at missing
    have names := missing own (List.mem_reverse.mpr listed)
    rw [LocalStore.headKey, toLex_inj, Prod.mk.injEq] at filed
    simp [filed] at names
  next seqNum named =>
    obtain ⟨head, located, rfl⟩ := Option.map_eq_some_iff.mp named
    have inside := List.mem_reverse.mp (List.mem_of_find?_eq_some located)
    have same := List.find?_some located
    rw [Bool.and_eq_true, decide_eq_true_eq, decide_eq_true_eq] at same
    rw [heads, LocalStore.authorHeads, mem_values_iff] at inside
    obtain ⟨log, placed⟩ := inside
    have key : log = LocalStore.headKey record := by
      rw [← (headsCover_heads records).filed log head placed, same.1, same.2]
      rfl
    rw [key, found] at placed
    cases placed
    rw [decide_eq_false_iff_not, UInt32.not_lt]
    exact bound

theorem inTail_of_added {checkpoint : KnotProjectionCheckpoint}
    (heads : checkpoint.heads = LocalStore.authorHeads earlier)
    (logs : LogsAppended earlier added) (new : record ∈ added) :
    checkpoint.inTail record = true := by
  refine inTail_of_after fun head inside author log => ?_
  rw [heads] at inside
  obtain ⟨source, held, rfl⟩ := mem_authorHeads inside
  refine logs.later new held ?_
  rw [LocalStore.headKey, LocalStore.headKey]
  exact congrArg toLex (Prod.ext author log)

theorem tail_perm {checkpoint : KnotProjectionCheckpoint}
    (heads : checkpoint.heads = LocalStore.authorHeads earlier)
    (logs : LogsAppended earlier added) (grown : records.Perm (earlier ++ added)) :
    (checkpoint.tail records).Perm (added.map fun record => record.operation.hash) := by
  have kept : (earlier ++ added).filter checkpoint.inTail = added := by
    have none_ : earlier.filter checkpoint.inTail = [] := by
      rw [List.filter_eq_nil_iff]
      intro record member
      rw [not_inTail_of_heads heads member]
      exact Bool.false_ne_true
    have all : added.filter checkpoint.inTail = added :=
      List.filter_eq_self.mpr fun record member => inTail_of_added heads logs member
    rw [List.filter_append, none_, all, List.nil_append]
  refine ((List.mergeSort_perm _ _).trans ?_).map _
  exact kept ▸ grown.filter _

end heads

section receipt

variable {host : PruningHost} {earlier store : LocalStore} {faults : LocalFaults}

theorem heads_of_built {cipher : KnotSyncCipher} {checkpoint : KnotProjectionCheckpoint}
    (built : earlier.buildCheckpointWithCipher host.toCheckpointHost faults cipher =
      .ok checkpoint) : checkpoint.heads = LocalStore.authorHeads earlier.sync.records := by
  obtain ⟨records, checked, afterRecords⟩ := bind_eq_ok_iff.mp built
  obtain ⟨projection, _, afterProjection⟩ := bind_eq_ok_iff.mp afterRecords
  obtain ⟨digests, _, finished⟩ := bind_eq_ok_iff.mp afterProjection
  cases finished
  rw [checkpointRecords_eq_ok checked]

/-- The receipt of a tail lists what has been accepted since its checkpoint was built, once each. -/
theorem tail_lists_what_came_since (host : PruningHost) (earlier store : LocalStore)
    (added : List StoredKnotOperation) (building loading : LocalFaults)
    (cipher : KnotSyncCipher) (vault : host.Vault) (checkpoint : KnotProjectionCheckpoint)
    (receipt : KnotTailReceipt) (logs : LogsAppended earlier.sync.records added)
    (grown : store.sync.records.Perm (earlier.sync.records ++ added))
    (built : earlier.buildCheckpointWithCipher host.toCheckpointHost building cipher =
      .ok checkpoint)
    (durable : store.loadCheckpoint host.toCheckpointHost loading vault = .ok (some checkpoint))
    (received : store.tailReceipt host loading vault = .ok receipt) :
    receipt.operations.Perm (added.map fun record => record.operation.hash) := by
  obtain ⟨found, loaded, afterLoad⟩ := bind_eq_ok_iff.mp received
  cases durable.symm.trans loaded
  obtain ⟨digest, _, afterDigest⟩ := bind_eq_ok_iff.mp afterLoad
  obtain ⟨records, held, finished⟩ := bind_eq_ok_iff.mp afterDigest
  cases finished
  cases loadOperations_eq_ok held
  exact tail_perm (heads_of_built built) logs grown

theorem logNumbers_of_ne {records : List StoredKnotOperation} {log one : LocalStore.HeadKey}
    (only : ∀ record ∈ records, LocalStore.headKey record = one) (apart : log ≠ one) :
    logNumbers records log = [] := by
  rw [logNumbers, List.map_eq_nil_iff, List.filter_eq_nil_iff]
  intro record member same
  rw [decide_eq_true_eq, only record member] at same
  exact apart same.symm

/-- The third operation comes after a checkpoint of the first two. -/
theorem tail_lists_what_came_since_shoal :
    ∃ receipt, (shoalStore.perform (shoalHost shoalCheckpoint)
        (.accept (shoalOperation 3 2 0))).tailReceipt (shoalHost shoalCheckpoint) {} () =
          .ok receipt ∧ receipt.operations.Perm [.filled 3] := by
  have received : ((shoalStore.perform (shoalHost shoalCheckpoint)
      (.accept (shoalOperation 3 2 0))).tailReceipt (shoalHost shoalCheckpoint) {} ()).isOk =
        true := by decide +kernel
  obtain ⟨receipt, done⟩ := isOk_iff.mp received
  have records : (shoalStore.perform (shoalHost shoalCheckpoint)
      (.accept (shoalOperation 3 2 0))).sync.records =
        shoalStore.sync.records ++ [⟨shoalOperation 3 2 0, 0⟩] := by decide +kernel
  refine ⟨receipt, done, tail_lists_what_came_since (shoalHost shoalCheckpoint) shoalStore _
    [⟨shoalOperation 3 2 0, 0⟩] {} {} (.commonsData ((shoalHost shoalCheckpoint).dataKeyring
      shoalKeys)) () shoalCheckpoint receipt ?_ (records ▸ List.Perm.refl _) ?_ ?_ done⟩
  · rw [show shoalStore.sync.records = [⟨shoalOperation 1 1 0, 0⟩, ⟨shoalOperation 2 2 1, 0⟩] by
      decide +kernel]
    intro log
    by_cases mine : log = toLex (.filled 10, 0)
    · subst mine
      exact ⟨0, 2, 1, by decide +kernel, by decide +kernel⟩
    · refine ⟨0, 0, 0, ?_, ?_⟩
      · rw [logNumbers_of_ne (by decide +kernel) mine]
        rfl
      · rw [logNumbers_of_ne (by decide +kernel) mine]
        rfl
  · decide +kernel
  · decide +kernel

end receipt

end KnotEditor
