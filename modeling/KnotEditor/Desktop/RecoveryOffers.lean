import KnotEditor.Desktop.RecoveryCopies

/-! The window's side of the writer: offers, retries and removals. -/

namespace KnotEditor.Desktop

open KeyedCollections WriteBehind

namespace RecoveryRuntime

theorem edits_append (queue : List Command) (command : Command) :
    edits (queue ++ [command]) = edits queue ++ command.edit.toList := by
  rw [edits, List.filterMap_append]
  cases shape : command.edit with
  | none => simp [shape, edits]
  | some edit => simp [shape, edits]

section

variable {recovery : RecoveryRuntime}

structure Offered (before after : RecoveryRuntime) (record : RecoveryRecord) (accepted : Bool) :
    Prop where
  orderly : Orderly after
  nextReply : after.nextReply = before.nextReply
  results : after.results = before.results
  latest : accepted = true → after.latest record.id = some record
  others : ∀ id, record.id ≠ id → after.latest id = before.latest id
  told : accepted = true ∧ after.localError = before.localError ∨
    accepted = false ∧ after.localError.isSome ∧ ∀ id, after.latest id = before.latest id
  absent : ∀ id, record.id ≠ id → before.Absent id → after.Absent id

theorem Offered.failed {before after : RecoveryRuntime} {record : RecoveryRecord}
    {accepted : Bool} (offered : Offered before after record accepted) (id : RecoveryId)
    (failed : before.Failed id) : after.Failed id := by
  rcases failed with ⟨message, member⟩
  exact ⟨message, offered.results ▸ member⟩

theorem deferredBytes_insert (record : RecoveryRecord) :
    ({ recovery with deferred := recovery.deferred.insert record.id record }).deferredBytes =
      recovery.deferredBytes - (recovery.deferred[record.id]?).elim 0 RecoveryRecord.size +
        record.size := by
  rw [deferredBytes, sum_values_insert, deferredBytes,
    ← sum_values_erase recovery.deferred record.id RecoveryRecord.size, Nat.add_sub_cancel]

theorem admits_iff (record : RecoveryRecord) :
    recovery.admits record = true ↔
      (recovery.deferred.size < maxPendingDocuments ∨
        (recovery.deferred[record.id]?).isSome = true) ∧
      recovery.deferredBytes - (recovery.deferred[record.id]?).elim 0 RecoveryRecord.size +
        record.size ≤ maxDeferredBytes := by
  have limit : maxDeferredBytes < usizeMax := by decide
  simp only [admits, Bool.and_eq_true, Bool.or_eq_true, decide_eq_true_eq,
    Std.ExtTreeMap.contains_eq_isSome_getElem?]
  refine and_congr_right fun _ => ?_
  simp only [saturatingAdd]
  omega

theorem trySend_eq (recovery : RecoveryRuntime) (command : Command) :
    recovery.trySend command = none ∨
      recovery.trySend command = some { recovery with queue := recovery.queue ++ [command] } := by
  rw [trySend]
  split
  · exact Or.inr rfl
  · exact Or.inl rfl

theorem size_insert_le (record : RecoveryRecord) (few : recovery.deferred.size ≤ maxPendingDocuments)
    (room : recovery.deferred.size < maxPendingDocuments ∨
      (recovery.deferred[record.id]?).isSome = true) :
    (recovery.deferred.insert record.id record).size ≤ maxPendingDocuments := by
  rw [Std.ExtTreeMap.size_insert]
  split
  · exact few
  · rename_i unheld
    rcases room with fewer | held
    · exact fewer
    · exact absurd (Std.ExtTreeMap.contains_eq_isSome_getElem?.trans held) unheld

theorem offer_sent (orderly : Orderly recovery) (record : RecoveryRecord) :
    Offered recovery { recovery with
      queue := recovery.queue ++ [.upsert record]
      deferred := recovery.deferred.erase record.id } record true where
  orderly := by
    refine ⟨keyed_erase orderly.deferred _, orderly.pending, orderly.stored, ?_, ?_, ?_,
      orderly.replied⟩
    · exact Nat.le_trans Std.ExtTreeMap.size_erase_le orderly.few
    · have total := sum_values_erase recovery.deferred record.id RecoveryRecord.size
      have small := orderly.small
      simp only [deferredBytes] at small ⊢
      omega
    · intro command member
      rcases List.mem_append.mp member with early | last
      · exact orderly.asked command early
      · cases List.mem_singleton.mp last
        exact by intros; contradiction
  nextReply := rfl
  results := rfl
  latest := by
    intro _
    simp [latest, edits_append, Command.edit, afterAll, after, Edit.key, Edit.outcome]
  others := by
    intro id differs
    rw [latest, latest, getElem?_erase_of_ne _ differs, edits_append, afterAll_append]
    congr 1
    exact afterAll_untouched (by simpa [Command.edit, Edit.key] using differs)
  told := Or.inl ⟨rfl, rfl⟩
  absent := by
    intro id differs absent
    refine ⟨(getElem?_erase_of_ne _ differs).trans absent.deferred, absent.pending, absent.stored,
      ?_, ?_⟩
    · intro other member
      rcases List.mem_append.mp member with early | last
      · exact absent.queued other early
      · cases List.mem_singleton.mp last
        exact differs
    · intro reply member
      rcases List.mem_append.mp member with early | last
      · exact absent.unclaimed reply early
      · simp at last

theorem offer_deferred (orderly : Orderly recovery) (record : RecoveryRecord)
    (admitted : recovery.admits record = true) :
    Offered recovery { recovery with
      deferred := recovery.deferred.insert record.id record } record true where
  orderly := by
    rcases admits_iff record |>.mp admitted with ⟨room, fits⟩
    refine ⟨keyed_insert orderly.deferred _, orderly.pending, orderly.stored,
      size_insert_le record orderly.few room, ?_, orderly.asked, orderly.replied⟩
    rw [deferredBytes_insert]
    exact fits
  nextReply := rfl
  results := rfl
  latest := by
    intro _
    rw [latest, Std.ExtTreeMap.getElem?_insert_self]
    rfl
  others := by
    intro id differs
    rw [latest, latest, getElem?_insert_of_ne _ differs]
    rfl
  told := Or.inl ⟨rfl, rfl⟩
  absent := fun id differs absent =>
    ⟨(getElem?_insert_of_ne _ differs _).trans absent.deferred, absent.pending, absent.stored,
      absent.queued, absent.unclaimed⟩

theorem offer_offered (orderly : Orderly recovery) (record : RecoveryRecord) :
    Offered recovery (recovery.offer record).2 record (recovery.offer record).1 := by
  rw [offer]
  rcases trySend_eq recovery (.upsert record) with full | sent
  · rw [full]
    by_cases admitted : recovery.admits record = true
    · simp only [admitted, if_true]
      exact offer_deferred orderly record admitted
    · simp only [if_neg admitted]
      refine ⟨⟨orderly.deferred, orderly.pending, orderly.stored, orderly.few,
        orderly.small, orderly.asked, orderly.replied⟩, rfl, rfl, by intros; contradiction, fun _ _ => rfl,
        Or.inr ⟨rfl, rfl, fun _ => rfl⟩, ?_⟩
      exact fun id _ absent => ⟨absent.deferred, absent.pending, absent.stored, absent.queued,
        absent.unclaimed⟩
  · rw [sent]
    exact offer_sent orderly record

structure Retried (before after : RecoveryRuntime) (records : List RecoveryRecord) : Prop where
  orderly : Orderly after
  localError : after.localError = before.localError
  nextReply : after.nextReply = before.nextReply
  few : after.deferred.size ≤ records.length
  small : after.deferredBytes ≤ (records.map RecoveryRecord.size).sum
  latest : ∀ record ∈ records, after.latest record.id = some record ∨ after.Failed record.id
  kept : ∀ id, (∀ record ∈ records, record.id ≠ id) → ∀ record, before.latest id = some record →
    after.latest id = some record ∨ after.Failed id
  failed : ∀ id, before.Failed id → after.Failed id
  absent : ∀ id, (∀ record ∈ records, record.id ≠ id) → before.Absent id → after.Absent id

theorem size_offer (record : RecoveryRecord) :
    (recovery.offer record).2.deferred.size ≤ recovery.deferred.size + 1 := by
  rw [offer]
  rcases trySend_eq recovery (.upsert record) with full | sent
  · rw [full]
    by_cases admitted : recovery.admits record = true
    · simp only [admitted, if_true]
      exact Std.ExtTreeMap.size_insert_le
    · simp only [if_neg admitted]
      exact Nat.le_succ _
  · rw [sent]
    exact Nat.le_succ_of_le Std.ExtTreeMap.size_erase_le

theorem deferredBytes_offer (record : RecoveryRecord) :
    (recovery.offer record).2.deferredBytes ≤ recovery.deferredBytes + record.size := by
  rw [offer]
  rcases trySend_eq recovery (.upsert record) with full | sent
  · rw [full]
    by_cases admitted : recovery.admits record = true
    · simp only [admitted, if_true]
      rw [deferredBytes_insert]
      omega
    · simp only [if_neg admitted]
      exact Nat.le_add_right _ _
  · rw [sent]
    have total := sum_values_erase recovery.deferred record.id RecoveryRecord.size
    simp only [deferredBytes]
    omega

theorem offer_accepted (record : RecoveryRecord)
    (room : recovery.deferred.size < maxPendingDocuments)
    (fits : recovery.deferredBytes + record.size ≤ maxDeferredBytes) :
    (recovery.offer record).1 = true := by
  rw [offer]
  rcases trySend_eq recovery (.upsert record) with full | sent
  · have admitted : recovery.admits record = true := by
      refine (admits_iff record).mpr ⟨Or.inl room, ?_⟩
      omega
    rw [full]
    simp only [admitted, if_true]
  · rw [sent]

theorem Retried.next {first middle : RecoveryRuntime} {front : List RecoveryRecord}
    (retried : Retried first middle front) (steps : List WriterStep) (record : RecoveryRecord)
    (unique : ∀ early ∈ front, early.id ≠ record.id)
    (room : front.length < maxPendingDocuments)
    (fits : (front.map RecoveryRecord.size).sum + record.size ≤ maxDeferredBytes) :
    Retried first ((middle.work steps).offer record).2 (front ++ [record]) := by
  have worked := work_worked retried.orderly steps
  have offered := offer_offered worked.orderly record
  have size : (middle.work steps).deferred.size ≤ front.length := by
    rw [worked.deferred]
    exact retried.few
  have bytes : (middle.work steps).deferredBytes ≤ (front.map RecoveryRecord.size).sum := by
    rw [deferredBytes, worked.deferred]
    exact retried.small
  have accepted : ((middle.work steps).offer record).1 = true :=
    offer_accepted record (by omega) (by omega)
  have failing := offered.failed
  have keeping : ∀ id, record.id ≠ id → ∀ held,
      middle.latest id = some held ∨ middle.Failed id →
        ((middle.work steps).offer record).2.latest id = some held ∨
          ((middle.work steps).offer record).2.Failed id := by
    rintro id differs held (was | failed)
    · rcases worked.kept id held was with still | failed
      · exact Or.inl ((offered.others id differs).trans still)
      · exact Or.inr (failing id failed)
    · exact Or.inr (failing id (worked.failed id failed))
  refine ⟨offered.orderly, ?_, ?_, ?_, ?_, ?_, ?_, ?_, ?_⟩
  · rcases offered.told with ⟨_, error⟩ | ⟨refused, _⟩
    · exact error.trans (worked.localError.trans retried.localError)
    · rw [accepted] at refused
      cases refused
  · exact offered.nextReply.trans (worked.nextReply.trans retried.nextReply)
  · rw [List.length_append, List.length_singleton]
    exact Nat.le_trans (size_offer record) (Nat.succ_le_succ size)
  · rw [List.map_append, List.sum_append, List.map_singleton, List.sum_singleton]
    exact Nat.le_trans (deferredBytes_offer record) (Nat.add_le_add_right bytes _)
  · intro found member
    rcases List.mem_append.mp member with early | last
    · exact keeping found.id (Ne.symm (unique found early)) found (retried.latest found early)
    · cases List.mem_singleton.mp last
      exact Or.inl (offered.latest accepted)
  · intro id others held was
    exact keeping id (others record (by simp)) held
      (retried.kept id (fun early member => others early (List.mem_append_left _ member)) held was)
  · exact fun id failed => failing id (worked.failed id (retried.failed id failed))
  · intro id others absent
    refine offered.absent id (others record (by simp)) (worked.absent id (retried.absent id ?_ absent))
    exact fun early member => others early (List.mem_append_left _ member)

theorem retryAll_retried (pause : RecoveryId → List WriterStep) (orderly : Orderly recovery)
    (empty : recovery.deferred = ∅) (records : List RecoveryRecord) :
    (records.map RecoveryRecord.id).Nodup → records.length ≤ maxPendingDocuments →
      (records.map RecoveryRecord.size).sum ≤ maxDeferredBytes →
        Retried recovery (records.foldl (fun recovery record =>
          ((recovery.work (pause record.id)).offer record).2) recovery) records := by
  induction records using List.reverseRecOn with
  | nil =>
    intro _ _ _
    refine ⟨orderly, rfl, rfl, ?_, ?_, by simp, fun _ _ _ held => Or.inl held,
      fun _ failed => failed, fun _ _ absent => absent⟩
    · simp [empty]
    · rw [List.foldl_nil, deferredBytes, empty]
      exact Nat.le_refl 0
  | append_singleton front record ih =>
    intro distinct few small
    rw [List.map_append, List.nodup_append] at distinct
    rw [List.length_append, List.length_singleton] at few
    rw [List.map_append, List.sum_append, List.map_singleton, List.sum_singleton] at small
    rw [List.foldl_append, List.foldl_cons, List.foldl_nil]
    refine (ih distinct.1 (by omega) (by omega)).next _ record ?_ (by omega) small
    intro early member
    exact distinct.2.2 early.id (List.mem_map_of_mem member) record.id (by simp)

theorem retry_carried (orderly : Orderly recovery) (pause : RecoveryId → List WriterStep) :
    Carried recovery (recovery.retry pause) := by
  have named : recovery.deferred.values.map RecoveryRecord.id = recovery.deferred.keys := by
    rw [values_eq_map_toList, ← Std.ExtTreeMap.map_fst_toList_eq_keys, List.map_map]
    refine List.map_congr_left ?_
    intro entry member
    exact orderly.deferred entry.1 entry.2 (Std.ExtTreeMap.mem_toList_iff_getElem?_eq_some.mp member)
  have size : recovery.deferred.values.length = recovery.deferred.size := by
    rw [values_eq_map_toList, List.length_map, Std.ExtTreeMap.length_toList]
  have start : Orderly { recovery with deferred := ∅ } :=
    ⟨keyed_empty, orderly.pending, orderly.stored, by simp, Nat.zero_le _,
      orderly.asked, orderly.replied⟩
  have retried := retryAll_retried pause start rfl recovery.deferred.values
    (named ▸ Std.ExtTreeMap.nodup_keys) (size ▸ orderly.few) orderly.small
  have unlisted : ∀ id : RecoveryId, recovery.deferred[id]? = none →
      ∀ record ∈ recovery.deferred.values, record.id ≠ id := by
    rintro id absent record member rfl
    rcases (mem_values_iff _ _).mp member with ⟨key, held⟩
    rw [orderly.deferred key record held, held] at absent
    cases absent
  refine ⟨retried.orderly, retried.localError, retried.nextReply, ?_, retried.failed, ?_⟩
  · intro id record held
    cases early : recovery.deferred[id]? with
    | some found =>
      rw [latest, early] at held
      cases held
      have same := orderly.deferred id record early
      subst same
      exact retried.latest record ((mem_values_iff _ _).mpr ⟨record.id, early⟩)
    | none =>
      refine retried.kept id (unlisted id early) record ?_
      rw [latest, early] at held
      rw [latest, Std.ExtTreeMap.getElem?_empty]
      exact held
  · intro id absent
    refine retried.absent id (unlisted id absent.deferred) ⟨by simp, absent.pending, absent.stored,
      absent.queued, absent.unclaimed⟩

structure Unasked (reply : Nat) (recovery : RecoveryRuntime) : Prop where
  queued : ∀ command ∈ recovery.queue, command.reply ≠ some reply
  unanswered : ∀ result, (reply, result) ∉ recovery.replies

theorem Unasked.step (reply : Nat) (orderly : Orderly recovery) (unasked : Unasked reply recovery)
    (step : WriterStep) : Unasked reply (recovery.writerStep step) := by
  rw [writerStep]
  cases queued : recovery.queue with
  | nil =>
    have wrote := flushPending_wroteOut recovery step.verdict orderly.pending
    refine ⟨?_, ?_⟩
    · rw [wrote.queue]
      exact unasked.queued
    · rw [wrote.replies]
      exact unasked.unanswered
  | cons command rest =>
    have among : ∀ later ∈ command :: rest, later ∈ recovery.queue := by
      intro later member
      rw [queued]
      exact member
    have received := receive_received { recovery with queue := rest } step command
      orderly.pending orderly.stored
    refine ⟨?_, ?_⟩
    · rw [received.queue]
      exact fun later member => unasked.queued later (among later (List.mem_cons_of_mem _ member))
    · intro result member
      rcases received.replied reply result member with asked | before
      · exact unasked.queued command (among _ List.mem_cons_self) asked
      · exact unasked.unanswered result before

theorem Unasked.work (reply : Nat) (orderly : Orderly recovery) (unasked : Unasked reply recovery)
    (steps : List WriterStep) : Unasked reply (recovery.work steps) := by
  induction steps generalizing recovery with
  | nil => exact unasked
  | cons step rest ih =>
    exact ih (writerStep_worked orderly step).orderly (unasked.step reply orderly step)

theorem sendBounded_cases (command : Command) (sleeps : List (List WriterStep))
    (orderly : Orderly recovery) :
    ∃ slept, Worked recovery slept ∧ (∀ reply, Unasked reply recovery → Unasked reply slept) ∧
      ((∃ error, sendBounded command sleeps recovery = (.error error, slept)) ∨
        sendBounded command sleeps recovery =
          (.ok (), { slept with queue := slept.queue ++ [command] })) := by
  induction sleeps generalizing recovery with
  | nil =>
    refine ⟨recovery, ⟨Carried.refl orderly, rfl⟩, fun _ unasked => unasked, ?_⟩
    rcases trySend_eq recovery command with full | sent
    · exact Or.inl ⟨_, by rw [sendBounded, full]⟩
    · exact Or.inr (by rw [sendBounded, sent])
  | cons steps rest ih =>
    rcases trySend_eq recovery command with full | sent
    · have worked := work_worked orderly steps
      rcases ih worked.orderly with ⟨slept, later, asked, result⟩
      rw [sendBounded, full]
      exact ⟨slept, ⟨worked.toCarried.trans later.toCarried,
        later.deferred.trans worked.deferred⟩, fun reply unasked =>
          asked reply (unasked.work reply orderly steps), result⟩
    · exact ⟨recovery, ⟨Carried.refl orderly, rfl⟩, fun _ unasked => unasked, Or.inr (by rw [sendBounded, sent])⟩

structure Sent (before after : RecoveryRuntime) (command : Command) : Prop where
  orderly : Orderly after
  localError : after.localError = before.localError
  kept : ∀ id, (∀ edit, command.edit = some edit → edit.key ≠ id) → ∀ record,
    before.latest id = some record → after.latest id = some record ∨ after.Failed id
  failed : ∀ id, before.Failed id → after.Failed id
  absent : ∀ id, (∀ reply, command ≠ .claim id reply) → before.Absent id → after.Absent id

theorem Sent.carried {first second third : RecoveryRuntime} {command : Command}
    (sent : Sent first second command) (carried : Carried second third) :
    Sent first third command where
  orderly := carried.orderly
  localError := carried.localError.trans sent.localError
  kept := by
    intro id other record held
    rcases sent.kept id other record held with still | failed
    · exact carried.kept id record still
    · exact Or.inr (carried.failed id failed)
  failed := fun id failed => carried.failed id (sent.failed id failed)
  absent := fun id other absent => carried.absent id (sent.absent id other absent)

theorem sent_push (command : Command) (orderly : Orderly recovery)
    (unoffered : ∀ record, command ≠ .upsert record)
    (asked : ∀ reply, command.reply = some reply → reply < recovery.nextReply) :
    Sent recovery { recovery with queue := recovery.queue ++ [command] } command where
  orderly := by
    refine ⟨orderly.deferred, orderly.pending, orderly.stored, orderly.few, orderly.small, ?_,
      orderly.replied⟩
    intro other member
    rcases List.mem_append.mp member with early | last
    · exact orderly.asked other early
    · cases List.mem_singleton.mp last
      exact asked
  localError := rfl
  kept := by
    intro id other record held
    refine Or.inl ?_
    rw [latest, edits_append, afterAll_append]
    rw [afterAll_untouched (by simpa using other)]
    exact held
  failed := fun _ failed => failed
  absent := by
    intro id other absent
    refine ⟨absent.deferred, absent.pending, absent.stored, ?_, ?_⟩
    · intro record member
      rcases List.mem_append.mp member with early | last
      · exact absent.queued record early
      · exact absurd (List.mem_singleton.mp last).symm (unoffered record)
    · intro reply member
      rcases List.mem_append.mp member with early | last
      · exact absent.unclaimed reply early
      · exact absurd (List.mem_singleton.mp last).symm (other reply)

theorem orderly_asking (orderly : Orderly recovery) :
    Orderly { recovery with nextReply := recovery.nextReply + 1 } :=
  ⟨orderly.deferred, orderly.pending, orderly.stored, orderly.few, orderly.small,
    fun command member reply same => Nat.lt_succ_of_lt (orderly.asked command member reply same),
    fun reply result member => Nat.lt_succ_of_lt (orderly.replied reply result member)⟩

theorem unasked_asking (orderly : Orderly recovery) :
    Unasked recovery.nextReply { recovery with nextReply := recovery.nextReply + 1 } := by
  refine ⟨?_, ?_⟩
  · intro command member same
    exact Nat.lt_irrefl _ (orderly.asked command member _ same)
  · intro result member
    exact Nat.lt_irrefl _ (orderly.replied _ result member)

structure Asked (before after : RecoveryRuntime) : Prop where
  orderly : Orderly after
  deferred : after.deferred = before.deferred
  localError : after.localError = before.localError
  nextReply : after.nextReply = before.nextReply + 1
  kept : ∀ id record, before.latest id = some record →
    after.latest id = some record ∨ after.Failed id
  failed : ∀ id, before.Failed id → after.Failed id
  absent : ∀ id, before.Absent id → after.Absent id
  unasked : Unasked before.nextReply after

theorem asked_work (orderly : Orderly recovery) (steps : List WriterStep) :
    Asked recovery ({ recovery with nextReply := recovery.nextReply + 1 }.work steps) := by
  have worked := work_worked (orderly_asking orderly) steps
  refine ⟨worked.orderly, worked.deferred, worked.localError, worked.nextReply,
    fun id record held => worked.kept id record held, worked.failed, ?_,
    (unasked_asking orderly).work _ (orderly_asking orderly) steps⟩
  exact fun id absent => worked.absent id
    ⟨absent.deferred, absent.pending, absent.stored, absent.queued, absent.unclaimed⟩

theorem await_cases (orderly : Orderly recovery) (command : Nat → Command) (wait : Wait)
    (late : String) :
    ∃ asked, Asked recovery asked ∧
      ((∃ error, recovery.await command wait late = (.error error, asked)) ∨
        recovery.await command wait late =
          ((({ asked with queue := asked.queue ++ [command recovery.nextReply] }.work
            wait.steps).replies.lookup recovery.nextReply).getD (.error late),
          { asked with queue := asked.queue ++ [command recovery.nextReply] }.work wait.steps)) := by
  have early := asked_work orderly wait.early
  rcases sendBounded_cases (command recovery.nextReply) wait.sleeps early.orderly with
    ⟨slept, worked, asked, ending⟩
  refine ⟨slept, ⟨worked.orderly, worked.deferred.trans early.deferred,
    worked.localError.trans early.localError, worked.nextReply.trans early.nextReply, ?_,
    fun id failed => worked.failed id (early.failed id failed),
    fun id absent => worked.absent id (early.absent id absent),
    asked _ early.unasked⟩, ?_⟩
  · intro id record held
    rcases early.kept id record held with still | failed
    · exact worked.kept id record still
    · exact Or.inr (worked.failed id failed)
  · rcases ending with ⟨error, refused⟩ | sent
    · exact Or.inl ⟨error, by simp only [await, refused]⟩
    · refine Or.inr ?_
      simp only [await, sent]
      cases ({ slept with queue := slept.queue ++ [command recovery.nextReply] }.work
        wait.steps).replies.lookup recovery.nextReply with
      | none => rfl
      | some answer => rfl

theorem Asked.sent {asked : RecoveryRuntime} (before : Asked recovery asked) (command : Command)
    (replies : command.reply = some recovery.nextReply) (steps : List WriterStep) :
    Sent recovery ({ asked with queue := asked.queue ++ [command] }.work steps) command := by
  have unoffered : ∀ record, command ≠ .upsert record := by
    rintro record rfl
    cases replies
  have pushed := sent_push command before.orderly unoffered (by
    intro reply same
    rw [replies] at same
    cases same
    rw [before.nextReply]
    exact Nat.lt_succ_self _)
  have result := pushed.carried (work_worked pushed.orderly steps).toCarried
  refine ⟨result.orderly, result.localError.trans before.localError, ?_,
    fun id failed => result.failed id (before.failed id failed),
    fun id other absent => result.absent id other (before.absent id absent)⟩
  intro id other record held
  rcases before.kept id record held with still | failed
  · exact result.kept id other record still
  · exact Or.inr (result.failed id failed)

theorem await_sent (orderly : Orderly recovery) (command : Nat → Command) (wait : Wait)
    (late : String) (replies : (command recovery.nextReply).reply = some recovery.nextReply) :
    Sent recovery (recovery.await command wait late).2 (command recovery.nextReply) := by
  rcases await_cases orderly command wait late with ⟨asked, before, ⟨error, refused⟩ | sent⟩
  · rw [refused]
    exact ⟨before.orderly, before.localError, fun id _ record held => before.kept id record held,
      before.failed, fun id _ absent => before.absent id absent⟩
  · rw [sent]
    exact before.sent _ replies wait.steps

structure Settles (command : Command) (reply : Nat) (Done : RecoveryRuntime → Prop) : Prop where
  answers : ∀ recovery step, Orderly recovery → ∃ result,
    (recovery.receive step command).replies.lookup reply = some result ∧
      ∀ record, result = .ok record → Done (recovery.receive step command)
  idles : ∀ recovery verdict, Orderly recovery → Done recovery →
    Done (flushPending recovery verdict).2

inductive Waiting (command : Command) (reply : Nat) (Done : RecoveryRuntime → Prop)
    (recovery : RecoveryRuntime) : Prop
  | queued (front : List Command)
      (queue : recovery.queue = front ++ [command])
      (others : ∀ command ∈ front, command.reply ≠ some reply)
      (unanswered : ∀ result, (reply, result) ∉ recovery.replies)
  | answered (result : Except String (Option RecoveryRecord)) (queue : recovery.queue = [])
      (found : recovery.replies.lookup reply = some result)
      (done : ∀ record, result = .ok record → Done recovery)

section Waiting

variable {command : Command} {reply : Nat} {Done : RecoveryRuntime → Prop}

theorem orderly_taken {first : Command} {rest : List Command} (orderly : Orderly recovery)
    (queued : recovery.queue = first :: rest) : Orderly { recovery with queue := rest } :=
  ⟨orderly.deferred, orderly.pending, orderly.stored, orderly.few, orderly.small,
    fun later member => orderly.asked later (by rw [queued]; exact List.mem_cons_of_mem _ member),
    orderly.replied⟩

theorem Waiting.step (settles : Settles command reply Done) (orderly : Orderly recovery)
    (waiting : Waiting command reply Done recovery) (step : WriterStep) :
    Waiting command reply Done (recovery.writerStep step) := by
  rw [writerStep]
  cases waiting with
  | answered result queue found done =>
    rw [queue]
    have wrote := flushPending_wroteOut recovery step.verdict orderly.pending
    refine Waiting.answered result (wrote.queue.trans queue) ?_ ?_
    · rw [wrote.replies]
      exact found
    · exact fun record ok => settles.idles recovery _ orderly (done record ok)
  | queued front queue others unanswered =>
    rw [queue]
    cases front with
    | nil =>
      have taken := orderly_taken orderly queue
      rcases settles.answers _ step taken with ⟨result, found, done⟩
      exact Waiting.answered result
        (receive_received _ step command taken.pending taken.stored).queue found done
    | cons first rest =>
      have taken := orderly_taken orderly queue
      have received := receive_received _ step first taken.pending taken.stored
      refine Waiting.queued rest received.queue ?_ ?_
      · exact fun later member => others later (List.mem_cons_of_mem _ member)
      · intro result member
        rcases received.replied reply result member with asked | before
        · exact others first List.mem_cons_self asked
        · exact unanswered result before

theorem Waiting.work (settles : Settles command reply Done) (orderly : Orderly recovery)
    (waiting : Waiting command reply Done recovery) (steps : List WriterStep) :
    Waiting command reply Done (recovery.work steps) := by
  induction steps generalizing recovery with
  | nil => exact waiting
  | cons step rest ih =>
    exact ih (writerStep_worked orderly step).orderly (waiting.step settles orderly step)

end Waiting

theorem await_done (orderly : Orderly recovery) (command : Nat → Command) (wait : Wait)
    (late : String) (replies : (command recovery.nextReply).reply = some recovery.nextReply)
    {Done : RecoveryRuntime → Prop}
    (settles : Settles (command recovery.nextReply) recovery.nextReply Done)
    (record : Option RecoveryRecord)
    (answered : (recovery.await command wait late).1 = .ok record) :
    (recovery.await command wait late).2.queue = [] ∧ Done (recovery.await command wait late).2 ∧
      (recovery.await command wait late).2.deferred = recovery.deferred := by
  rcases await_cases orderly command wait late with ⟨asked, before, ⟨error, refused⟩ | sent⟩
  · rw [refused] at answered
    cases answered
  · rw [sent] at answered ⊢
    have pushed : Orderly { asked with queue := asked.queue ++ [command recovery.nextReply] } :=
      (before.sent (command recovery.nextReply) replies []).orderly
    have waiting : Waiting (command recovery.nextReply) recovery.nextReply Done
        { asked with queue := asked.queue ++ [command recovery.nextReply] } :=
      Waiting.queued asked.queue rfl before.unasked.queued before.unasked.unanswered
    have deferred := (work_worked pushed wait.steps).deferred.trans before.deferred
    cases waiting.work settles pushed wait.steps with
    | queued front queue others unanswered =>
      rw [List.lookup_eq_none_iff.mpr ?_] at answered
      · cases answered
      · rintro ⟨reply, result⟩ member
        rw [bne_iff_ne]
        rintro rfl
        exact unanswered result member
    | answered result queue found done =>
      rw [found] at answered
      exact ⟨queue, done record answered, deferred⟩

theorem remove_settles (id : RecoveryId) (reply : Nat) :
    Settles (.remove id reply) reply
      fun recovery => recovery.pending[id]? = none ∧ recovery.stored[id]? = none where
  answers := by
    intro recovery step orderly
    rw [receive, storeRemove_eq]
    refine ⟨_, List.lookup_cons_self, ?_⟩
    intro record ok
    cases verdict : step.verdict id with
    | refused error reached =>
      rw [verdict] at ok
      cases ok
    | done => exact ⟨Std.ExtTreeMap.getElem?_erase_self, Std.ExtTreeMap.getElem?_erase_self⟩
  idles := by
    intro recovery verdict orderly gone
    have wrote := flushPending_wroteOut recovery verdict orderly.pending
    rw [wrote.pending]
    exact ⟨by simp, (wrote.absent id gone.1).trans gone.2⟩

theorem await_gone (orderly : Orderly recovery) (id : RecoveryId) (wait : Wait) (late : String)
    (undeferred : recovery.deferred[id]? = none) (record : Option RecoveryRecord)
    (answered : (recovery.await (.remove id) wait late).1 = .ok record) :
    (recovery.await (.remove id) wait late).2.Absent id := by
  rcases await_done orderly (.remove id) wait late rfl (remove_settles id _) record answered with
    ⟨empty, ⟨pending, stored⟩, deferred⟩
  refine ⟨?_, pending, stored, by simp [empty], by simp [empty]⟩
  rw [deferred]
  exact undeferred

structure Cleared (before after : RecoveryRuntime) (id : RecoveryId)
    (result : Except String Unit) : Prop where
  orderly : Orderly after
  localError : after.localError = before.localError
  kept : ∀ other, id ≠ other → ∀ record, before.latest other = some record →
    after.latest other = some record ∨ after.Failed other
  failed : ∀ other, before.Failed other → after.Failed other
  absent : ∀ other, before.Absent other → after.Absent other
  gone : result = .ok () → after.Absent id

theorem orderly_undefer (orderly : Orderly recovery) (id : RecoveryId) :
    Orderly { recovery with deferred := recovery.deferred.erase id } := by
  refine ⟨keyed_erase orderly.deferred id, orderly.pending, orderly.stored,
    Nat.le_trans Std.ExtTreeMap.size_erase_le orderly.few, ?_, orderly.asked, orderly.replied⟩
  have total := sum_values_erase recovery.deferred id RecoveryRecord.size
  have small := orderly.small
  simp only [deferredBytes] at small ⊢
  omega

theorem clear_cleared (orderly : Orderly recovery) (id : RecoveryId) (wait : Wait) :
    Cleared recovery (recovery.clear id wait).2 id (recovery.clear id wait).1 := by
  have undeferred := orderly_undefer orderly id
  have sent := await_sent undeferred (.remove id) wait
    "recovery cleanup did not finish within three seconds" rfl
  have gone := await_gone undeferred id wait
    "recovery cleanup did not finish within three seconds" Std.ExtTreeMap.getElem?_erase_self
  have kept : ∀ other, id ≠ other → ∀ record, recovery.latest other = some record →
      ({ recovery with deferred := recovery.deferred.erase id }).latest other = some record := by
    intro other differs record held
    rw [latest, getElem?_erase_of_ne _ differs]
    exact held
  have absent : ∀ other, recovery.Absent other →
      ({ recovery with deferred := recovery.deferred.erase id }).Absent other := by
    intro other absent
    refine ⟨?_, absent.pending, absent.stored, absent.queued, absent.unclaimed⟩
    rw [Std.ExtTreeMap.getElem?_erase, absent.deferred]
    exact ite_self _
  have still : ∀ other, recovery.Absent other →
      (({ recovery with deferred := recovery.deferred.erase id }).await (.remove id) wait
        "recovery cleanup did not finish within three seconds").2.Absent other := by
    intro other was
    refine sent.absent other ?_ (absent other was)
    intro reply same
    cases same
  rw [clear]
  cases waited : ({ recovery with deferred := recovery.deferred.erase id }).await (.remove id) wait
      "recovery cleanup did not finish within three seconds" with
  | mk result after =>
    rw [waited] at sent gone still
    have others : ∀ other, id ≠ other → ∀ record, recovery.latest other = some record →
        after.latest other = some record ∨ after.Failed other := by
      intro other differs record held
      refine sent.kept other ?_ record (kept other differs record held)
      rintro edit ⟨⟩
      exact differs
    cases result with
    | error error =>
      exact ⟨sent.orderly, sent.localError, others, sent.failed,
        still, by intros; contradiction⟩
    | ok record =>
      have done := gone record rfl
      have orderly := sent.orderly
      refine ⟨⟨orderly.deferred, orderly.pending, orderly.stored,
        orderly.few, orderly.small, orderly.asked, orderly.replied⟩, sent.localError, others,
        sent.failed, ?_, fun _ =>
          ⟨done.deferred, done.pending, done.stored, done.queued, done.unclaimed⟩⟩
      intro other was
      have left := still other was
      exact ⟨left.deferred, left.pending, left.stored, left.queued, left.unclaimed⟩

end

end RecoveryRuntime

end KnotEditor.Desktop
