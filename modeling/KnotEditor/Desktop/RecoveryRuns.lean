import KnotEditor.Desktop.RecoveryHandover
import KnotEditor.Desktop.RecoveryReports

/-! Every run of the window's calls and of the writer between and during them: what is handed to
the directory, what a removal ends, what a flush promises, and how much waits. -/

namespace KnotEditor.Desktop

open KeyedCollections WriteBehind RecoveryRuntime

inductive RecoveryCall
  | offer (record : RecoveryRecord)
  | retry (pause : RecoveryId → List WriterStep)
  | clear (id : RecoveryId) (wait : Wait)
  | flush (pause : RecoveryId → List WriterStep) (wait : Wait)
  | claim (id : RecoveryId) (wait : Wait)
  | setRetentionDays (days : Nat) (wait : Wait)
  | drainError
  | work (steps : List WriterStep)

namespace RecoveryCall

def offered : RecoveryCall → List RecoveryRecord
  | offer record => [record]
  | _ => []

def Names (id : RecoveryId) : RecoveryCall → Prop
  | offer record => record.id = id
  | clear cleared _ => cleared = id
  | _ => False

end RecoveryCall

namespace RecoveryRuntime

def perform (recovery : RecoveryRuntime) : RecoveryCall → Bool × RecoveryRuntime
  | .offer record => recovery.offer record
  | .retry pause => (true, recovery.retry pause)
  | .clear id wait => ((recovery.clear id wait).1.isOk, (recovery.clear id wait).2)
  | .flush pause wait => ((recovery.flush pause wait).1.isOk, (recovery.flush pause wait).2)
  | .claim id wait => ((recovery.claim id wait).1.isOk, (recovery.claim id wait).2)
  | .setRetentionDays days wait =>
    ((recovery.setRetentionDays days wait).1.isOk, (recovery.setRetentionDays days wait).2)
  | .drainError => (true, recovery.drainError.2)
  | .work steps => (true, recovery.work steps)

def run (recovery : RecoveryRuntime) (calls : List RecoveryCall) : RecoveryRuntime :=
  calls.foldl (fun recovery call => (recovery.perform call).2) recovery

def sentBy (recovery : RecoveryRuntime) (call : RecoveryCall) :
    List (Option RecoveryId × String) :=
  (recovery.perform call).2.results.drop recovery.results.length

def sentDuring : RecoveryRuntime → List RecoveryCall → List (Option RecoveryId × String)
  | _, [] => []
  | recovery, call :: rest => recovery.sentBy call ++ (recovery.perform call).2.sentDuring rest

def retrying (recovery : RecoveryRuntime) (pause : RecoveryId → List WriterStep)
    (front : List RecoveryRecord) : RecoveryRuntime :=
  front.foldl (fun recovery record => ((recovery.work (pause record.id)).offer record).2)
    { recovery with deferred := ∅ }

structure Bounded (recovery : RecoveryRuntime) : Prop where
  deferred : recovery.deferred.size ≤ maxPendingDocuments
  pending : recovery.pending.size ≤ maxPendingDocuments
  bytes : recovery.deferredBytes ≤ maxDeferredBytes

structure Standing (recovery : RecoveryRuntime) : Prop where
  orderly : Orderly recovery
  filed : Filed recovery

variable {recovery : RecoveryRuntime}

theorem Standing.bounded (standing : Standing recovery) : Bounded recovery :=
  ⟨standing.orderly.few, standing.filed.few, standing.orderly.small⟩

theorem start_standing (host : RecoveryHost) (store : RecoveryStore) (live : Uuid → Bool)
    (items : RecoveryItems) : Standing (start host store live items) :=
  ⟨orderly_start _ _ _, keyed_empty, keyed_empty, Nat.zero_le _⟩

section Calls

theorem claim_sent (orderly : Orderly recovery) (id : RecoveryId) (wait : Wait) :
    Sent recovery (recovery.claim id wait).2 (.claim id recovery.nextReply) :=
  await_sent orderly (.claim id) wait _ rfl

theorem setRetentionDays_sent (orderly : Orderly recovery) (days : Nat) (wait : Wait) :
    Sent recovery (recovery.setRetentionDays days wait).2
      (.retention { maxAgeDays := some days } recovery.nextReply) :=
  await_sent orderly (.retention { maxAgeDays := some days }) wait _ rfl

theorem flush_orderly (orderly : Orderly recovery) (pause : RecoveryId → List WriterStep)
    (wait : Wait) : Orderly (recovery.flush pause wait).2 := by
  have retried := retry_carried orderly pause
  rw [flush]
  split
  · exact retried.orderly
  · exact (await_sent retried.orderly .flush wait _ rfl).orderly

theorem perform_orderly (orderly : Orderly recovery) (call : RecoveryCall) :
    Orderly (recovery.perform call).2 := by
  cases call with
  | offer record => exact (offer_offered orderly record).orderly
  | retry pause => exact (retry_carried orderly pause).orderly
  | clear id wait => exact (clear_cleared orderly id wait).orderly
  | flush pause wait => exact flush_orderly orderly pause wait
  | claim id wait => exact (claim_sent orderly id wait).orderly
  | setRetentionDays days wait => exact (setRetentionDays_sent orderly days wait).orderly
  | drainError =>
    exact ⟨orderly.deferred, orderly.pending, orderly.stored, orderly.few, orderly.small,
      orderly.asked, orderly.replied⟩
  | work steps => exact (work_worked orderly steps).orderly

theorem perform_handsOver (standing : Standing recovery) (call : RecoveryCall) :
    Filed (recovery.perform call).2 ∧ HandsOver recovery (recovery.perform call).2 call.offered := by
  cases call with
  | offer record => exact (Move.offered recovery record).handsOver standing.filed
  | retry pause => exact retry_handsOver standing.filed standing.orderly.deferred pause
  | clear id wait => exact (clear_moves recovery id wait).handsOver standing.filed
  | flush pause wait => exact flush_handsOver standing.filed standing.orderly.deferred pause wait
  | claim id wait =>
    exact (await_moves recovery (.claim id) wait _ fun _ => rfl).handsOver standing.filed
  | setRetentionDays days wait =>
    exact (await_moves recovery (.retention { maxAgeDays := some days }) wait _
      fun _ => rfl).handsOver standing.filed
  | drainError => exact (Move.drained recovery).handsOver standing.filed
  | work steps => exact (work_moves recovery steps).handsOver standing.filed

theorem perform_standing (standing : Standing recovery) (call : RecoveryCall) :
    Standing (recovery.perform call).2 :=
  ⟨perform_orderly standing.orderly call, (perform_handsOver standing call).1⟩

theorem perform_kept (orderly : Orderly recovery) (call : RecoveryCall) {id : RecoveryId}
    {record : RecoveryRecord} (other : ¬call.Names id) (held : recovery.latest id = some record) :
    (recovery.perform call).2.latest id = some record ∨ (recovery.perform call).2.Failed id := by
  cases call with
  | offer offered =>
    refine Or.inl ?_
    rw [← held]
    exact (offer_offered orderly offered).others id other
  | retry pause => exact (retry_carried orderly pause).kept id record held
  | clear cleared wait => exact (clear_cleared orderly cleared wait).kept id other record held
  | flush pause wait =>
    have retried := retry_carried orderly pause
    change (recovery.flush pause wait).2.latest id = _ ∨ (recovery.flush pause wait).2.Failed id
    rw [flush]
    split
    · exact retried.kept id record held
    · have sent := await_sent retried.orderly .flush wait
        "recovery flush did not finish within three seconds" rfl
      rcases retried.kept id record held with still | failed
      · exact sent.kept id (by simp [Command.edit]) record still
      · exact Or.inr (sent.failed id failed)
  | claim claimed wait =>
    exact (claim_sent orderly claimed wait).kept id (by simp [Command.edit]) record held
  | setRetentionDays days wait =>
    exact (setRetentionDays_sent orderly days wait).kept id (by simp [Command.edit]) record held
  | drainError => exact Or.inl held
  | work steps => exact (work_worked orderly steps).kept id record held

theorem perform_told (recovery : RecoveryRuntime)
    (earlier : List (Option RecoveryId × String)) (call : RecoveryCall) (undrained : call ≠ .drainError) :
    (recovery.told earlier).perform call =
      ((recovery.perform call).1, (recovery.perform call).2.told earlier) := by
  cases call with
  | offer record => exact offer_told recovery earlier record
  | retry pause => simp only [perform, retry_told]
  | clear id wait => simp only [perform, clear_told]
  | flush pause wait => simp only [perform, flush_told]
  | claim id wait => simp only [perform, claim, await_told]
  | setRetentionDays days wait => simp only [perform, setRetentionDays, await_told]
  | drainError => exact absurd rfl undrained
  | work steps => simp only [perform, work_told]

theorem perform_since (orderly : Orderly recovery) (call : RecoveryCall) {id : RecoveryId}
    {record : RecoveryRecord} (other : ¬call.Names id) (held : recovery.latest id = some record) :
    (recovery.perform call).2.latest id = some record ∨
      ∃ message, (some id, message) ∈ recovery.sentBy call := by
  by_cases drained : call = .drainError
  · subst drained
    exact Or.inl held
  · have silent : Orderly { recovery with results := [] } :=
      ⟨orderly.deferred, orderly.pending, orderly.stored, orderly.few, orderly.small,
        orderly.asked, orderly.replied⟩
    have same : recovery = ({ recovery with results := [] }).told recovery.results := by
      rw [told, List.append_nil]
    have kept := perform_kept silent call other held
    have shape := perform_told { recovery with results := [] } recovery.results call drained
    rw [← same] at shape
    rw [sentBy, shape, told_results, List.drop_left]
    exact kept

theorem flush_settles (reply : Nat) :
    Settles (.flush reply) reply fun recovery => recovery.pending = ∅ where
  answers := by
    intro recovery step orderly
    rw [receive]
    exact ⟨_, List.lookup_cons_self, fun _ _ =>
      (flushPending_wroteOut recovery step.verdict orderly.pending).pending⟩
  idles := fun recovery verdict orderly _ =>
    (flushPending_wroteOut recovery verdict orderly.pending).pending

theorem flush_settled (orderly : Orderly recovery) (pause : RecoveryId → List WriterStep)
    (wait : Wait) (done : (recovery.flush pause wait).1.isOk = true) (id : RecoveryId) :
    (recovery.flush pause wait).2.latest id = (recovery.flush pause wait).2.stored[id]? := by
  have retried := (retry_carried orderly pause).orderly
  simp only [flush] at done ⊢
  split at done
  · cases done
  · rename_i emptied
    rw [if_neg emptied]
    have none : (recovery.retry pause).deferred = ∅ := by
      rw [← Std.ExtTreeMap.isEmpty_iff]
      simpa using emptied
    cases answered : ((recovery.retry pause).await .flush wait
        "recovery flush did not finish within three seconds").1 with
    | error error =>
      rw [answered] at done
      cases done
    | ok record =>
      rcases await_done retried .flush wait _ rfl (flush_settles _) record answered with
        ⟨empty, pending, deferred⟩
      rw [latest, deferred, none, empty, disk_of_empty pending]
      simp [edits, afterAll]

end Calls

section Runs

def offersIn (calls : List RecoveryCall) : List RecoveryRecord :=
  calls.flatMap RecoveryCall.offered

theorem run_append (recovery : RecoveryRuntime) (front back : List RecoveryCall) :
    recovery.run (front ++ back) = (recovery.run front).run back :=
  List.foldl_append

theorem run_handsOver (standing : Standing recovery) (calls : List RecoveryCall) :
    Standing (recovery.run calls) ∧ HandsOver recovery (recovery.run calls) (offersIn calls) := by
  induction calls generalizing recovery with
  | nil => exact ⟨standing, HandsOver.refl recovery⟩
  | cons call rest ih =>
    rcases ih (perform_standing standing call) with ⟨still, later⟩
    exact ⟨still, (perform_handsOver standing call).2.trans later⟩

theorem run_since (standing : Standing recovery) (calls : List RecoveryCall) {id : RecoveryId}
    {record : RecoveryRecord} (others : ∀ call ∈ calls, ¬call.Names id)
    (held : recovery.latest id = some record) :
    (recovery.run calls).latest id = some record ∨
      ∃ message, (some id, message) ∈ recovery.sentDuring calls := by
  induction calls generalizing recovery with
  | nil => exact Or.inl held
  | cons call rest ih =>
    have unnamed := others call List.mem_cons_self
    rcases perform_since standing.orderly call unnamed held with still | ⟨message, sent⟩
    · rcases ih (perform_standing standing call)
        (fun later member => others later (List.mem_cons_of_mem _ member)) still with
        kept | ⟨message, sent⟩
      · exact Or.inl kept
      · exact Or.inr ⟨message, List.mem_append_right _ sent⟩
    · exact Or.inr ⟨message, List.mem_append_left _ sent⟩

theorem clear_waiting (orderly : Orderly recovery) (id : RecoveryId) (wait : Wait)
    (done : (recovery.clear id wait).1.isOk = true) :
    (recovery.clear id wait).2.waiting id = [] := by
  have cleared := clear_cleared orderly id wait
  cases answered : (recovery.clear id wait).1 with
  | error error =>
    rw [answered] at done
    cases done
  | ok _ =>
    have gone := cleared.gone answered
    rw [waiting, gone.pending, gone.deferred, under_eq_nil]
    · rfl
    · intro record member
      rcases List.mem_filterMap.mp member with ⟨command, queued, offered⟩
      cases command with
      | upsert found =>
        cases offered
        exact gone.queued record queued
      | remove id reply => cases offered
      | flush reply => cases offered
      | retention policy reply => cases offered
      | claim id reply => cases offered

theorem retrying_bounded (standing : Standing recovery) (pause : RecoveryId → List WriterStep)
    (front : List RecoveryRecord) (among : front <+: recovery.deferred.values)
    (steps : List WriterStep) : Bounded ((recovery.retrying pause front).work steps) := by
  have orderly := standing.orderly
  have start : Orderly { recovery with deferred := ∅ } :=
    ⟨keyed_empty, orderly.pending, orderly.stored, Nat.zero_le _, Nat.zero_le _, orderly.asked,
      orderly.replied⟩
  rcases among with ⟨back, split⟩
  have distinct : (recovery.deferred.values.map RecoveryRecord.id).Nodup := by
    rw [map_id_values orderly.deferred]
    exact Std.ExtTreeMap.nodup_keys
  have size : recovery.deferred.values.length = recovery.deferred.size := by
    rw [values_eq_map_toList, List.length_map, Std.ExtTreeMap.length_toList]
  have few := orderly.few
  have small : (recovery.deferred.values.map RecoveryRecord.size).sum ≤ maxDeferredBytes :=
    orderly.small
  rw [← split] at distinct size small
  rw [List.map_append, List.nodup_append] at distinct
  rw [List.length_append] at size
  rw [List.map_append, List.sum_append] at small
  have retried := retryAll_retried pause start rfl front distinct.1 (by omega) (by omega)
  have filed := ((retry_moves { recovery with deferred := ∅ } pause front).trans
    (work_moves _ steps)).handsOver ⟨standing.filed.pending, standing.filed.stored,
      standing.filed.few⟩
  have worked := work_worked retried.orderly steps
  exact ⟨worked.orderly.few, filed.1.few, worked.orderly.small⟩

structure KeepsEdits (start : RecoveryRuntime) (calls : List RecoveryCall) : Prop where
  /-- Of every id, the records are handed to the directory in the order in which they were
  offered, and each at most once. -/
  ordered : ∀ id, (under id (start.run calls).handed).Sublist (under id (offersIn calls))
  /-- No step of the writer replaces a stored record but by one that it hands over. -/
  replaced : ∀ step (id : RecoveryId) (old new : RecoveryRecord),
    (start.run calls).stored[id]? = some old →
      ((start.run calls).writerStep step).stored[id]? = some new →
        new = old ∨ ∃ handed, ((start.run calls).writerStep step).handed =
          (start.run calls).handed ++ handed ∧ new ∈ handed
  /-- After a removal returned without an error, only what is offered later is handed over. -/
  cleared : ∀ front id wait back, calls = front ++ .clear id wait :: back →
    ((start.run front).perform (.clear id wait)).1 = true →
      ∃ handed, (start.run calls).handed =
        (start.run (front ++ [.clear id wait])).handed ++ handed ∧
          (under id handed).Sublist (under id (offersIn back))
  /-- When a flush returns without an error, the directory holds the latest accepted record of an
  id, or an error that names the id was sent since. -/
  flushed : ∀ front record middle pause wait,
    calls = front ++ .offer record :: (middle ++ [.flush pause wait]) →
      ((start.run front).perform (.offer record)).1 = true →
        (∀ call ∈ middle, ¬call.Names record.id) →
          ((start.run (front ++ .offer record :: middle)).perform (.flush pause wait)).1 = true →
            (start.run calls).stored[record.id]? = some record ∨
              ∃ message, (some record.id, message) ∈
                (start.run (front ++ [.offer record])).sentDuring (middle ++ [.flush pause wait])
  bounded : Bounded (start.run calls)
  retrying : ∀ pause front, front <+: (start.run calls).deferred.values → ∀ steps,
    Bounded (((start.run calls).retrying pause front).work steps)

theorem standing_cleared {start : RecoveryRuntime} (standing : Standing start)
    (front back : List RecoveryCall) (id : RecoveryId) (wait : Wait)
    (done : ((start.run front).perform (.clear id wait)).1 = true) :
    ∃ handed, (start.run (front ++ .clear id wait :: back)).handed =
      (start.run (front ++ [.clear id wait])).handed ++ handed ∧
        (under id handed).Sublist (under id (offersIn back)) := by
  have before := (run_handsOver standing front).1
  have empty := clear_waiting before.orderly id wait done
  rcases (run_handsOver (perform_standing before (.clear id wait)) back).2 with
    ⟨handed, given, ordered⟩
  refine ⟨handed, ?_, ?_⟩
  · rw [run_append, run_append]
    exact given
  · have later := ordered id
    rw [show ((start.run front).perform (.clear id wait)).2.waiting id = [] from empty,
      List.nil_append] at later
    exact (List.sublist_append_left _ _).trans later

theorem standing_flushed {start : RecoveryRuntime} (standing : Standing start)
    (front middle : List RecoveryCall) (record : RecoveryRecord)
    (pause : RecoveryId → List WriterStep) (wait : Wait)
    (accepted : ((start.run front).perform (.offer record)).1 = true)
    (others : ∀ call ∈ middle, ¬call.Names record.id)
    (done : ((start.run (front ++ .offer record :: middle)).perform (.flush pause wait)).1 = true) :
    (start.run (front ++ .offer record :: (middle ++ [.flush pause wait]))).stored[record.id]? =
        some record ∨
      ∃ message, (some record.id, message) ∈
        (start.run (front ++ [.offer record])).sentDuring (middle ++ [.flush pause wait]) := by
  have before := (run_handsOver standing front).1
  have offered := (offer_offered before.orderly record).latest accepted
  have after := perform_standing before (.offer record)
  have unnamed : ∀ call ∈ middle ++ [.flush pause wait], ¬call.Names record.id := by
    intro call member
    rcases List.mem_append.mp member with early | last
    · exact others call early
    · rw [List.mem_singleton.mp last]
      exact fun named => named
  have ending : start.run (front ++ .offer record :: (middle ++ [.flush pause wait])) =
      ((start.run (front ++ .offer record :: middle)).flush pause wait).2 := by
    rw [show front ++ .offer record :: (middle ++ [.flush pause wait]) =
      (front ++ .offer record :: middle) ++ [.flush pause wait] by simp, run_append]
    rfl
  have whole : (start.run (front ++ [.offer record])).run (middle ++ [.flush pause wait]) =
      start.run (front ++ .offer record :: (middle ++ [.flush pause wait])) := by
    rw [← run_append]
    simp
  have begun : start.run (front ++ [.offer record]) =
      ((start.run front).perform (.offer record)).2 := run_append start front [.offer record]
  have reached := (run_handsOver standing (front ++ .offer record :: middle)).1
  have since := run_since (begun ▸ after) (middle ++ [.flush pause wait]) unnamed
    (begun ▸ offered)
  rw [whole, ending, flush_settled reached.orderly pause wait done] at since
  rw [ending]
  exact since

/-- No run of the window's calls, interleaved with the writer's steps and failures, loses an
accepted record without a word or brings back a removed one. -/
theorem recovery_writer_keeps_edits (host : RecoveryHost) (store : RecoveryStore)
    (live : Uuid → Bool) (items : RecoveryItems) (calls : List RecoveryCall) :
    KeepsEdits (start host store live items) calls := by
  have standing := start_standing host store live items
  have reached := run_handsOver standing calls
  refine ⟨?_, ?_, ?_, ?_, reached.1.bounded, ?_⟩
  · intro id
    rcases reached.2 with ⟨handed, given, ordered⟩
    rw [given]
    exact (List.sublist_append_left _ _).trans (ordered id)
  · exact fun step => (writerStep_handsOver reached.1.filed step).2.2
  · rintro front id wait back rfl done
    exact standing_cleared standing front back id wait done
  · rintro front record middle pause wait rfl accepted others done
    exact standing_flushed standing front middle record pause wait accepted others done
  · exact fun pause front among steps => retrying_bounded reached.1 pause front among steps

example :
    let note : RecoveryRecord := { id := 7, sourceText := "storm", format := "Djot" }
    (({ sessionId := none } : RecoveryRuntime).run
      [.offer note, .flush (fun _ => []) { steps := [{}, {}] }]).stored[note.id]? = some note := by
  decide

end Runs

end RecoveryRuntime

end KnotEditor.Desktop
