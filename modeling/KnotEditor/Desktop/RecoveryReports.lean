import KnotEditor.Desktop.RecoveryOffers

/-! Neither the window nor the writer looks at the reports: what they do after a moment, they would
have done had nothing been reported before it. So a failure that costs a record is reported then. -/

namespace KnotEditor.Desktop

open KeyedCollections

namespace RecoveryRuntime

def told (recovery : RecoveryRuntime) (earlier : List (Option RecoveryId × String)) :
    RecoveryRuntime :=
  { recovery with results := earlier ++ recovery.results }

section Told

variable (recovery : RecoveryRuntime) (earlier : List (Option RecoveryId × String))

@[simp] theorem told_results : (recovery.told earlier).results = earlier ++ recovery.results := rfl

@[simp] theorem told_pending : (recovery.told earlier).pending = recovery.pending := rfl

@[simp] theorem told_stored : (recovery.told earlier).stored = recovery.stored := rfl

@[simp] theorem told_queue : (recovery.told earlier).queue = recovery.queue := rfl

@[simp] theorem told_replies : (recovery.told earlier).replies = recovery.replies := rfl

theorem report_told (id : RecoveryId) (message : String) :
    (recovery.told earlier).report id message = (recovery.report id message).told earlier := by
  simp only [report, told, List.append_assoc]

theorem storeUpsert_told (verdict : StoreVerdict) (record : RecoveryRecord) :
    (recovery.told earlier).storeUpsert verdict record =
      (recovery.storeUpsert verdict record).told earlier := by
  simp only [storeUpsert]
  split <;> rfl

theorem flushRecord_told (verdict : RecoveryId → StoreVerdict) (error : Option String)
    (record : RecoveryRecord) :
    flushRecord verdict (error, recovery.told earlier) record =
      ((flushRecord verdict (error, recovery) record).1,
        (flushRecord verdict (error, recovery) record).2.told earlier) := by
  simp only [flushRecord, storeUpsert_told]
  split
  · rfl
  · rw [report_told]

theorem flushRecords_told (verdict : RecoveryId → StoreVerdict) (records : List RecoveryRecord)
    (recovery : RecoveryRuntime) (error : Option String) :
    records.foldl (flushRecord verdict) (error, recovery.told earlier) =
      ((records.foldl (flushRecord verdict) (error, recovery)).1,
        (records.foldl (flushRecord verdict) (error, recovery)).2.told earlier) := by
  induction records generalizing recovery error with
  | nil => rfl
  | cons record rest ih =>
    rw [List.foldl_cons, List.foldl_cons, flushRecord_told, ih]

theorem flushPending_told (verdict : RecoveryId → StoreVerdict) :
    (recovery.told earlier).flushPending verdict =
      ((recovery.flushPending verdict).1, (recovery.flushPending verdict).2.told earlier) := by
  have same := flushRecords_told earlier verdict recovery.pending.values
    { recovery with pending := ∅ } none
  change recovery.pending.values.foldl (flushRecord verdict)
    (none, { recovery.told earlier with pending := ∅ }) = _ at same
  simp only [flushPending]
  rw [told_pending, same]
  generalize recovery.pending.values.foldl (flushRecord verdict)
    (none, { recovery with pending := ∅ }) = flushed
  cases flushed with
  | mk error after =>
    cases error with
    | none => rfl
    | some message => rfl

theorem receive_told (step : WriterStep) (command : Command) :
    (recovery.told earlier).receive step command = (recovery.receive step command).told earlier := by
  cases command with
  | upsert record =>
    rw [receive, receive, told_pending]
    by_cases full : recovery.pending.size ≥ maxPendingDocuments ∧
        (!recovery.pending.contains record.id) = true
    · rw [if_pos full, if_pos full]
      exact report_told recovery earlier _ _
    · rw [if_neg full, if_neg full]
      have held := flushPending_told
        { recovery with pending := recovery.pending.insert record.id record } earlier step.verdict
      cases step.elapsed with
      | false => rfl
      | true => exact congrArg Prod.snd held
  | remove id reply =>
    simp only [receive, storeRemove]
    split <;> rfl
  | flush reply =>
    simp only [receive, flushPending_told]
    rfl
  | retention policy reply => rfl
  | claim id reply =>
    simp only [receive]
    cases step.verdict id with
    | refused error reached => rfl
    | done =>
      rw [told_stored]
      cases recovery.stored[id]?.or step.claimed with
      | none => rfl
      | some record =>
        simp only []
        split <;> rfl

theorem writerStep_told (step : WriterStep) :
    (recovery.told earlier).writerStep step = (recovery.writerStep step).told earlier := by
  rw [writerStep, writerStep, told_queue]
  cases recovery.queue with
  | nil =>
    simp only []
    rw [flushPending_told]
  | cons command rest => exact receive_told { recovery with queue := rest } earlier step command

theorem work_told (steps : List WriterStep) (recovery : RecoveryRuntime) :
    (recovery.told earlier).work steps = (recovery.work steps).told earlier := by
  induction steps generalizing recovery with
  | nil => rfl
  | cons step rest ih =>
    change ((recovery.told earlier).writerStep step).work rest = _
    rw [writerStep_told]
    exact ih _

theorem trySend_told (command : Command) :
    (recovery.told earlier).trySend command =
      (recovery.trySend command).map fun sent => sent.told earlier := by
  rw [trySend, trySend, told_queue]
  split <;> rfl

theorem offer_told (record : RecoveryRecord) :
    (recovery.told earlier).offer record =
      ((recovery.offer record).1, (recovery.offer record).2.told earlier) := by
  rw [offer, offer, trySend_told]
  rcases trySend_eq recovery (.upsert record) with full | sent
  · rw [full]
    simp only [Option.map_none]
    change (if recovery.admits record = true then _ else _) = _
    split <;> rfl
  · rw [sent]
    rfl

theorem retry_told (pause : RecoveryId → List WriterStep) :
    (recovery.told earlier).retry pause = (recovery.retry pause).told earlier := by
  suffices offers : ∀ (records : List RecoveryRecord) (recovery : RecoveryRuntime),
      records.foldl (fun recovery record => ((recovery.work (pause record.id)).offer record).2)
        (recovery.told earlier) =
      (records.foldl (fun recovery record =>
        ((recovery.work (pause record.id)).offer record).2) recovery).told earlier from
    offers recovery.deferred.values { recovery with deferred := ∅ }
  intro records
  induction records with
  | nil => exact fun _ => rfl
  | cons record rest ih =>
    intro recovery
    rw [List.foldl_cons, List.foldl_cons, work_told, offer_told, ih]

theorem sendBounded_told (command : Command) (sleeps : List (List WriterStep))
    (recovery : RecoveryRuntime) :
    sendBounded command sleeps (recovery.told earlier) =
      ((sendBounded command sleeps recovery).1,
        (sendBounded command sleeps recovery).2.told earlier) := by
  induction sleeps generalizing recovery with
  | nil =>
    rw [sendBounded, sendBounded, trySend_told]
    rcases trySend_eq recovery command with full | sent
    · rw [full]
      rfl
    · rw [sent]
      rfl
  | cons steps rest ih =>
    rw [sendBounded, sendBounded, trySend_told]
    rcases trySend_eq recovery command with full | sent
    · rw [full]
      simp only [Option.map_none]
      rw [work_told, ih]
    · rw [sent]
      rfl

theorem await_told (command : Nat → Command) (wait : Wait) (late : String) :
    (recovery.told earlier).await command wait late =
      ((recovery.await command wait late).1, (recovery.await command wait late).2.told earlier) := by
  have numbered : ({ recovery.told earlier with
      nextReply := (recovery.told earlier).nextReply + 1 } : RecoveryRuntime) =
      ({ recovery with nextReply := recovery.nextReply + 1 } : RecoveryRuntime).told earlier := rfl
  have reply : (recovery.told earlier).nextReply = recovery.nextReply := rfl
  simp only [await]
  rw [numbered, reply, work_told, sendBounded_told]
  cases sendBounded (command recovery.nextReply) wait.sleeps
      ({ recovery with nextReply := recovery.nextReply + 1 }.work wait.early) with
  | mk result after =>
    cases result with
    | error error => rfl
    | ok accepted =>
      simp only [work_told]
      rw [told_replies]
      cases (after.work wait.steps).replies.lookup recovery.nextReply with
      | none => rfl
      | some result => rfl

theorem clear_told (id : RecoveryId) (wait : Wait) :
    (recovery.told earlier).clear id wait =
      ((recovery.clear id wait).1, (recovery.clear id wait).2.told earlier) := by
  have erased : ({ recovery.told earlier with
      deferred := (recovery.told earlier).deferred.erase id } : RecoveryRuntime) =
      ({ recovery with deferred := recovery.deferred.erase id } : RecoveryRuntime).told earlier := rfl
  rw [clear, clear, erased, await_told]
  cases ({ recovery with deferred := recovery.deferred.erase id }).await (.remove id) wait
      "recovery cleanup did not finish within three seconds" with
  | mk result after =>
    cases result with
    | error error => rfl
    | ok record => rfl

theorem flush_told (pause : RecoveryId → List WriterStep) (wait : Wait) :
    (recovery.told earlier).flush pause wait =
      ((recovery.flush pause wait).1, (recovery.flush pause wait).2.told earlier) := by
  simp only [flush, retry_told, await_told]
  change (if (!(recovery.retry pause).deferred.isEmpty) = true then _ else _) = _
  split <;> rfl

end Told

end RecoveryRuntime

end KnotEditor.Desktop
