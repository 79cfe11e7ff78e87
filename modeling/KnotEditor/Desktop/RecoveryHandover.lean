import KnotEditor.Desktop.RecoveryOffers

/-! The way of a record from its offer to the directory: the order in which the records of an id
are handed over, and how many wait. -/

namespace KnotEditor.Desktop

open KeyedCollections RecoveryRuntime

def under (id : RecoveryId) (records : List RecoveryRecord) : List RecoveryRecord :=
  records.filter fun record => decide (record.id = id)

@[simp] theorem under_append (id : RecoveryId) (front back : List RecoveryRecord) :
    under id (front ++ back) = under id front ++ under id back :=
  List.filter_append _ _

@[simp] theorem under_nil (id : RecoveryId) : under id [] = [] := rfl

theorem under_cons_self {id : RecoveryId} {record : RecoveryRecord} (same : record.id = id)
    (rest : List RecoveryRecord) : under id (record :: rest) = record :: under id rest :=
  List.filter_cons_of_pos (by simpa using same)

theorem under_cons_other {id : RecoveryId} {record : RecoveryRecord} (differs : record.id ≠ id)
    (rest : List RecoveryRecord) : under id (record :: rest) = under id rest :=
  List.filter_cons_of_neg (by simpa using differs)

theorem under_eq_nil {id : RecoveryId} {records : List RecoveryRecord}
    (others : ∀ record ∈ records, record.id ≠ id) : under id records = [] :=
  List.filter_eq_nil_iff.mpr (by simpa using others)

theorem under_eq_singleton {records : List RecoveryRecord} {record : RecoveryRecord}
    (distinct : (records.map RecoveryRecord.id).Nodup) (member : record ∈ records) :
    under record.id records = [record] := by
  induction records with
  | nil => cases member
  | cons first rest ih =>
    rw [List.map_cons, List.nodup_cons] at distinct
    rcases List.mem_cons.mp member with same | later
    · subst same
      rw [under_cons_self rfl, under_eq_nil]
      intro other found same
      exact distinct.1 (same ▸ List.mem_map_of_mem found)
    · rw [under_cons_other, ih distinct.2 later]
      intro same
      exact distinct.1 (same ▸ List.mem_map_of_mem later)

theorem map_id_values {items : RecoveryItems} (keyed : Keyed items) :
    items.values.map RecoveryRecord.id = items.keys := by
  rw [values_eq_map_toList, ← Std.ExtTreeMap.map_fst_toList_eq_keys, List.map_map]
  refine List.map_congr_left ?_
  intro entry member
  exact keyed entry.1 entry.2 (Std.ExtTreeMap.mem_toList_iff_getElem?_eq_some.mp member)

theorem under_values {items : RecoveryItems} (keyed : Keyed items) (id : RecoveryId) :
    under id items.values = items[id]?.toList := by
  cases held : items[id]? with
  | none =>
    refine under_eq_nil ?_
    rintro record member rfl
    rcases (mem_values_iff _ _).mp member with ⟨key, found⟩
    rw [keyed key record found, found] at held
    cases held
  | some record =>
    have named := keyed id record held
    subst named
    refine under_eq_singleton ?_ ((mem_values_iff _ _).mpr ⟨record.id, held⟩)
    rw [map_id_values keyed]
    exact Std.ExtTreeMap.nodup_keys

def Command.offered : Command → Option RecoveryRecord
  | upsert record => some record
  | _ => none

theorem offered_cons (command : Command) (rest : List Command) :
    (command :: rest).filterMap Command.offered =
      command.offered.toList ++ rest.filterMap Command.offered := by
  rw [List.filterMap_cons]
  cases command.offered with
  | none => rfl
  | some record => rfl

namespace RecoveryRuntime

def waiting (recovery : RecoveryRuntime) (id : RecoveryId) : List RecoveryRecord :=
  recovery.pending[id]?.toList ++ under id (recovery.queue.filterMap Command.offered) ++
    recovery.deferred[id]?.toList

/-- Of every id, the records handed over and those left on their way are those that were on their
way and those offered, in that order and with some of them dropped. -/
def HandsOver (before after : RecoveryRuntime) (offered : List RecoveryRecord) : Prop :=
  ∃ handed, after.handed = before.handed ++ handed ∧
    ∀ id, (under id handed ++ after.waiting id).Sublist (before.waiting id ++ under id offered)

theorem HandsOver.trans {first second third : RecoveryRuntime} {early late : List RecoveryRecord}
    (one : HandsOver first second early) (two : HandsOver second third late) :
    HandsOver first third (early ++ late) := by
  rcases one with ⟨before, handed, ordered⟩
  rcases two with ⟨later, taken, kept⟩
  refine ⟨before ++ later, by rw [taken, handed, List.append_assoc], fun id => ?_⟩
  have middle : (under id before ++ (under id later ++ third.waiting id)).Sublist
      (under id before ++ (second.waiting id ++ under id late)) := (kept id).append_left _
  have whole : ((under id before ++ second.waiting id) ++ under id late).Sublist
      ((first.waiting id ++ under id early) ++ under id late) := (ordered id).append_right _
  rw [List.append_assoc, List.append_assoc] at whole
  rw [under_append, under_append, List.append_assoc]
  exact middle.trans whole

theorem HandsOver.refl (recovery : RecoveryRuntime) : HandsOver recovery recovery [] :=
  ⟨[], (List.append_nil _).symm, fun id => by simp⟩

variable {before after : RecoveryRuntime} {offered : List RecoveryRecord}

theorem handsOver_of_waiting (handed : after.handed = before.handed)
    (waiting : ∀ id, (after.waiting id).Sublist (before.waiting id ++ under id offered)) :
    HandsOver before after offered :=
  ⟨[], by rw [handed, List.append_nil], fun id => by simpa using waiting id⟩

section Writer

variable {recovery : RecoveryRuntime}

structure Filed (recovery : RecoveryRuntime) : Prop where
  pending : Keyed recovery.pending
  stored : Keyed recovery.stored
  few : recovery.pending.size ≤ maxPendingDocuments

structure Took (before after : RecoveryRuntime) (offered : List RecoveryRecord) : Prop where
  filed : Filed after
  queue : after.queue = before.queue
  deferred : after.deferred = before.deferred
  ordered : ∃ handed, after.handed = before.handed ++ handed ∧ ∀ id,
    (under id handed ++ after.pending[id]?.toList).Sublist
      (before.pending[id]?.toList ++ under id offered)
  replaced : ∀ (id : RecoveryId) (old new : RecoveryRecord), before.stored[id]? = some old →
    after.stored[id]? = some new →
      new = old ∨ ∃ handed, after.handed = before.handed ++ handed ∧ new ∈ handed

theorem flushRecords_given (verdict : RecoveryId → StoreVerdict) (records : List RecoveryRecord)
    (recovery : RecoveryRuntime) (error : Option String) :
    (records.foldl (flushRecord verdict) (error, recovery)).2.handed =
        recovery.handed ++ records ∧
      ∀ (id : RecoveryId) new,
        (records.foldl (flushRecord verdict) (error, recovery)).2.stored[id]? = some new →
          recovery.stored[id]? = some new ∨ new ∈ records := by
  induction records generalizing recovery error with
  | nil => exact ⟨(List.append_nil _).symm, fun _ _ held => Or.inl held⟩
  | cons record rest ih =>
    rw [List.foldl_cons]
    rcases @flushRecord_eq recovery verdict error record with ⟨results, shape, _, _⟩
    cases flushed : flushRecord verdict (error, recovery) record with
    | mk failure after =>
      rw [flushed] at shape
      rcases ih after failure with ⟨handed, stored⟩
      refine ⟨?_, ?_⟩
      · rw [handed, show after.handed = _ from congrArg RecoveryRuntime.handed shape]
        exact List.append_assoc _ _ _
      · intro id new held
        rcases stored id new held with before | later
        · rw [show after.stored = _ from congrArg RecoveryRuntime.stored shape] at before
          split at before
          · rcases (getElem?_insert_eq_some_iff _).mp before with ⟨_, same⟩ | ⟨_, held⟩
            · exact Or.inr (same ▸ List.mem_cons_self)
            · exact Or.inl held
          · exact Or.inl before
        · exact Or.inr (List.mem_cons_of_mem _ later)

theorem flushPending_took (recovery : RecoveryRuntime) (filed : Filed recovery)
    (verdict : RecoveryId → StoreVerdict) : Took recovery (recovery.flushPending verdict).2 [] := by
  have wrote := flushPending_wroteOut recovery verdict filed.pending
  rcases flushRecords_given verdict recovery.pending.values { recovery with pending := ∅ } none
    with ⟨handed, stored⟩
  rw [← flushPending_eq] at handed
  refine ⟨⟨?_, wrote.keyed filed.stored, ?_⟩, wrote.queue, wrote.deferred,
    ⟨_, handed, fun id => ?_⟩, ?_⟩
  · rw [wrote.pending]
    exact keyed_empty
  · rw [wrote.pending]
    exact Nat.zero_le _
  · rw [wrote.pending, under_values filed.pending]
    simp
  · intro id old new before after
    rw [flushPending_eq] at after
    rcases stored id new after with held | given
    · exact Or.inl (Option.some.inj (held.symm.trans before))
    · exact Or.inr ⟨_, handed, given⟩

theorem took_answer (recovery : RecoveryRuntime) (filed : Filed recovery) (reply : Nat)
    (result : Except String (Option RecoveryRecord)) :
    Took recovery (recovery.answer reply result) [] :=
  ⟨⟨filed.pending, filed.stored, filed.few⟩, rfl, rfl,
    ⟨[], (List.append_nil _).symm, fun id => by simp [answer]⟩,
    fun _ _ _ before after => Or.inl (Option.some.inj (after.symm.trans before))⟩

theorem took_upsert (recovery : RecoveryRuntime) (filed : Filed recovery) (step : WriterStep)
    (record : RecoveryRecord) :
    Took recovery (recovery.receive step (.upsert record)) [record] := by
  rw [receive]
  split
  · exact ⟨⟨filed.pending, filed.stored, filed.few⟩, rfl, rfl,
      ⟨[], (List.append_nil _).symm, fun id => List.sublist_append_left _ _⟩,
      fun _ _ _ before after => Or.inl (Option.some.inj (after.symm.trans before))⟩
  · rename_i room
    have held : Filed { recovery with pending := recovery.pending.insert record.id record } := by
      refine ⟨keyed_insert filed.pending record, filed.stored, ?_⟩
      change (recovery.pending.insert record.id record).size ≤ _
      have few := filed.few
      rw [Std.ExtTreeMap.size_insert]
      by_cases known : recovery.pending.contains record.id = true
      · rw [if_pos known]
        exact few
      · simp only [known, Bool.not_false, and_true, ge_iff_le, not_le] at room
        rw [if_neg known]
        exact room
    have waits : ∀ id : RecoveryId, ((recovery.pending.insert record.id record)[id]?.toList).Sublist
        (recovery.pending[id]?.toList ++ under id [record]) := by
      intro id
      by_cases same : record.id = id
      · subst same
        rw [Std.ExtTreeMap.getElem?_insert_self, under_cons_self rfl]
        exact List.sublist_append_right _ _
      · rw [getElem?_insert_of_ne _ same]
        exact List.sublist_append_left _ _
    by_cases elapsed : step.elapsed = true
    · simp only [elapsed, if_true]
      have flushed := flushPending_took _ held step.verdict
      rcases flushed.ordered with ⟨handed, given, ordered⟩
      refine ⟨flushed.filed, flushed.queue, flushed.deferred, ⟨handed, given, fun id => ?_⟩,
        flushed.replaced⟩
      exact (ordered id).trans (by simpa using waits id)
    · simp only [if_neg elapsed]
      exact ⟨held, rfl, rfl, ⟨[], (List.append_nil _).symm, fun id => by simpa using waits id⟩,
        fun _ _ _ before after => Or.inl (Option.some.inj (after.symm.trans before))⟩

theorem took_remove (recovery : RecoveryRuntime) (filed : Filed recovery) (step : WriterStep)
    (id : RecoveryId) (reply : Nat) :
    Took recovery (recovery.receive step (.remove id reply)) [] := by
  have received := receive_remove step id reply filed.pending filed.stored
  rw [receive, storeRemove_eq] at received ⊢
  refine ⟨⟨received.pending, received.stored, Nat.le_trans Std.ExtTreeMap.size_erase_le filed.few⟩,
    rfl, rfl, ⟨[], (List.append_nil _).symm, fun query => ?_⟩, ?_⟩
  · change (recovery.pending.erase id)[query]?.toList.Sublist _
    rw [Std.ExtTreeMap.getElem?_erase]
    split
    · exact List.nil_sublist _
    · exact List.sublist_append_left _ _
  · intro query old new before after
    change (if _ then _ else _ : RecoveryItems)[query]? = _ at after
    split at after
    · rcases (getElem?_erase_eq_some_iff _).mp after with ⟨_, held⟩
      exact Or.inl (Option.some.inj (held.symm.trans before))
    · exact Or.inl (Option.some.inj (after.symm.trans before))

theorem took_claim (recovery : RecoveryRuntime) (filed : Filed recovery) (step : WriterStep)
    (id : RecoveryId) (reply : Nat) :
    Took recovery (recovery.receive step (.claim id reply)) [] := by
  rw [receive]
  cases step.verdict id with
  | refused error reached => exact took_answer recovery filed reply _
  | done =>
    cases found : recovery.stored[id]?.or step.claimed with
    | none => exact took_answer recovery filed reply _
    | some record =>
      by_cases same : record.id = id
      · subst same
        simp only [ne_eq, not_true_eq_false, if_false]
        refine ⟨⟨filed.pending, keyed_insert filed.stored record, filed.few⟩, rfl, rfl,
          ⟨[], (List.append_nil _).symm, fun id => by simp [answer]⟩, ?_⟩
        intro query old new before after
        rcases (getElem?_insert_eq_some_iff _).mp after with ⟨named, given⟩ | ⟨_, held⟩
        · subst named
          rw [before, Option.some_or] at found
          exact Or.inl (given.trans (Option.some.inj found).symm)
        · exact Or.inl (Option.some.inj (held.symm.trans before))
      · simp only [ne_eq, same, not_false_eq_true, if_true]
        exact took_answer recovery filed reply _

theorem receive_took (recovery : RecoveryRuntime) (filed : Filed recovery) (step : WriterStep)
    (command : Command) :
    Took recovery (recovery.receive step command) command.offered.toList := by
  cases command with
  | upsert record => exact took_upsert recovery filed step record
  | remove id reply => exact took_remove recovery filed step id reply
  | flush reply =>
    have flushed := flushPending_took recovery filed step.verdict
    exact ⟨⟨flushed.filed.pending, flushed.filed.stored, flushed.filed.few⟩, flushed.queue,
      flushed.deferred, flushed.ordered, flushed.replaced⟩
  | retention policy reply => exact took_answer recovery filed reply _
  | claim id reply => exact took_claim recovery filed step id reply

theorem writerStep_handsOver (filed : Filed recovery) (step : WriterStep) :
    Filed (recovery.writerStep step) ∧ HandsOver recovery (recovery.writerStep step) [] ∧
      ∀ (id : RecoveryId) (old new : RecoveryRecord), recovery.stored[id]? = some old →
        (recovery.writerStep step).stored[id]? = some new →
          new = old ∨ ∃ handed,
            (recovery.writerStep step).handed = recovery.handed ++ handed ∧ new ∈ handed := by
  rw [writerStep]
  cases queued : recovery.queue with
  | nil =>
    have took := flushPending_took recovery filed step.verdict
    rcases took.ordered with ⟨handed, given, ordered⟩
    refine ⟨took.filed, ⟨handed, given, fun id => ?_⟩, took.replaced⟩
    rw [waiting, waiting, took.queue, took.deferred, queued]
    simpa using (ordered id).append_right (recovery.deferred[id]?.toList)
  | cons command rest =>
    have took := receive_took { recovery with queue := rest } ⟨filed.pending, filed.stored,
      filed.few⟩ step command
    rcases took.ordered with ⟨handed, given, ordered⟩
    refine ⟨took.filed, ⟨handed, given, fun id => ?_⟩, took.replaced⟩
    have queue : ({ recovery with queue := rest }.receive step command).queue = rest := took.queue
    have deferred : ({ recovery with queue := rest }.receive step command).deferred =
      recovery.deferred := took.deferred
    have front := (ordered id).append_right
      (under id (rest.filterMap Command.offered) ++ recovery.deferred[id]?.toList)
    rw [waiting, waiting, queue, deferred, queued, offered_cons, under_append, under_nil,
      List.append_nil]
    simpa only [List.append_assoc] using front

end Writer

/-- The moves that the window's operations and the writer are made of, with what they offer. -/
inductive Move : RecoveryRuntime → List RecoveryRecord → RecoveryRuntime → Prop
  | worked (before : RecoveryRuntime) (step : WriterStep) : Move before [] (before.writerStep step)
  | offered (before : RecoveryRuntime) (record : RecoveryRecord) :
      Move before [record] (before.offer record).2
  | dropped (before : RecoveryRuntime) (id : RecoveryId) :
      Move before [] { before with deferred := before.deferred.erase id }
  | asked (before : RecoveryRuntime) :
      Move before [] { before with nextReply := before.nextReply + 1 }
  | sent (before : RecoveryRuntime) (command : Command) (unoffered : command.offered = none) :
      Move before [] { before with queue := before.queue ++ [command] }
  | released (before : RecoveryRuntime) (records : List RecoveryRecord) :
      Move before [] { before with records }
  | drained (before : RecoveryRuntime) : Move before [] before.drainError.2

inductive Moves : RecoveryRuntime → List RecoveryRecord → RecoveryRuntime → Prop
  | refl (recovery : RecoveryRuntime) : Moves recovery [] recovery
  | next {first second third : RecoveryRuntime} {early late : List RecoveryRecord}
      (moved : Moves first early second) (move : Move second late third) :
      Moves first (early ++ late) third

theorem offer_handsOver (recovery : RecoveryRuntime) (record : RecoveryRecord) :
    HandsOver recovery (recovery.offer record).2 [record] := by
  rw [offer]
  rcases trySend_eq recovery (.upsert record) with full | sent
  · rw [full]
    by_cases admitted : recovery.admits record = true
    · simp only [admitted, if_true]
      refine handsOver_of_waiting rfl fun id => ?_
      rw [waiting, waiting, List.append_assoc, List.append_assoc, List.append_assoc]
      refine List.Sublist.append_left (List.Sublist.append_left ?_ _) _
      change ((recovery.deferred.insert record.id record)[id]?.toList).Sublist _
      by_cases same : record.id = id
      · subst same
        rw [Std.ExtTreeMap.getElem?_insert_self, under_cons_self rfl]
        exact List.sublist_append_right _ _
      · rw [getElem?_insert_of_ne _ same]
        exact List.sublist_append_left _ _
    · simp only [if_neg admitted]
      exact handsOver_of_waiting rfl fun id => List.sublist_append_left _ _
  · rw [sent]
    refine handsOver_of_waiting rfl fun id => ?_
    rw [waiting, waiting, List.filterMap_append, under_append, List.append_assoc,
      List.append_assoc, List.append_assoc, List.append_assoc]
    refine List.Sublist.append_left (List.Sublist.append_left ?_ _) _
    change (under id [record] ++ (recovery.deferred.erase record.id)[id]?.toList).Sublist _
    by_cases same : record.id = id
    · subst same
      rw [Std.ExtTreeMap.getElem?_erase_self, under_cons_self rfl]
      exact List.sublist_append_right _ _
    · rw [getElem?_erase_of_ne _ same, under_cons_other same]
      simp

theorem filed_offer {recovery : RecoveryRuntime} (filed : Filed recovery)
    (record : RecoveryRecord) : Filed (recovery.offer record).2 := by
  rw [offer]
  rcases trySend_eq recovery (.upsert record) with full | sent
  · rw [full]
    by_cases admitted : recovery.admits record = true
    · simp only [admitted, if_true]
      exact ⟨filed.pending, filed.stored, filed.few⟩
    · simp only [if_neg admitted]
      exact ⟨filed.pending, filed.stored, filed.few⟩
  · rw [sent]
    exact ⟨filed.pending, filed.stored, filed.few⟩

theorem Move.handsOver (move : Move before offered after) (filed : Filed before) :
    Filed after ∧ HandsOver before after offered := by
  cases move with
  | worked step =>
    rcases writerStep_handsOver filed step with ⟨kept, ordered, _⟩
    exact ⟨kept, ordered⟩
  | offered record => exact ⟨filed_offer filed record, offer_handsOver before record⟩
  | dropped id =>
    refine ⟨⟨filed.pending, filed.stored, filed.few⟩, handsOver_of_waiting rfl fun query => ?_⟩
    rw [under_nil, List.append_nil]
    refine List.Sublist.append_left ?_ _
    change ((before.deferred.erase id)[query]?.toList).Sublist _
    rw [Std.ExtTreeMap.getElem?_erase]
    split
    · exact List.nil_sublist _
    · exact List.Sublist.refl _
  | asked =>
    exact ⟨⟨filed.pending, filed.stored, filed.few⟩,
      handsOver_of_waiting rfl fun id => List.sublist_append_left _ _⟩
  | sent command unoffered =>
    refine ⟨⟨filed.pending, filed.stored, filed.few⟩, handsOver_of_waiting rfl fun id => ?_⟩
    rw [waiting, waiting, List.filterMap_append, List.filterMap_cons, unoffered]
    simp
  | released records =>
    exact ⟨⟨filed.pending, filed.stored, filed.few⟩,
      handsOver_of_waiting rfl fun id => List.sublist_append_left _ _⟩
  | drained =>
    exact ⟨⟨filed.pending, filed.stored, filed.few⟩,
      handsOver_of_waiting rfl fun id => List.sublist_append_left _ _⟩

theorem Moves.handsOver (moves : Moves before offered after) (filed : Filed before) :
    Filed after ∧ HandsOver before after offered := by
  induction moves with
  | refl => exact ⟨filed, HandsOver.refl before⟩
  | next moved move ih =>
    rcases ih with ⟨kept, ordered⟩
    rcases move.handsOver kept with ⟨still, later⟩
    exact ⟨still, ordered.trans later⟩

theorem Move.single (move : Move before offered after) : Moves before offered after :=
  (Moves.refl before).next move

theorem Moves.trans {first second third : RecoveryRuntime} {early late : List RecoveryRecord}
    (one : Moves first early second) (two : Moves second late third) :
    Moves first (early ++ late) third := by
  induction two with
  | refl => simpa using one
  | next moved move ih =>
    rw [← List.append_assoc]
    exact ih.next move

variable {recovery : RecoveryRuntime}

theorem work_moves (recovery : RecoveryRuntime) (steps : List WriterStep) :
    Moves recovery [] (recovery.work steps) := by
  induction steps generalizing recovery with
  | nil => exact Moves.refl recovery
  | cons step rest ih => exact (Move.worked recovery step).single.trans (ih _)

theorem retry_moves (recovery : RecoveryRuntime) (pause : RecoveryId → List WriterStep)
    (records : List RecoveryRecord) :
    Moves recovery records (records.foldl
      (fun recovery record => ((recovery.work (pause record.id)).offer record).2) recovery) := by
  induction records generalizing recovery with
  | nil => exact Moves.refl recovery
  | cons record rest ih =>
    exact ((work_moves recovery (pause record.id)).next (Move.offered _ record)).trans (ih _)

theorem sendBounded_moves (command : Command) (unoffered : command.offered = none)
    (sleeps : List (List WriterStep)) (recovery : RecoveryRuntime) :
    Moves recovery [] (sendBounded command sleeps recovery).2 := by
  induction sleeps generalizing recovery with
  | nil =>
    rw [sendBounded]
    rcases trySend_eq recovery command with full | sent
    · rw [full]
      exact Moves.refl recovery
    · rw [sent]
      exact (Move.sent recovery command unoffered).single
  | cons steps rest ih =>
    rw [sendBounded]
    rcases trySend_eq recovery command with full | sent
    · rw [full]
      exact (work_moves recovery steps).trans (ih _)
    · rw [sent]
      exact (Move.sent recovery command unoffered).single

theorem await_moves (recovery : RecoveryRuntime) (command : Nat → Command) (wait : Wait)
    (late : String) (unoffered : ∀ reply, (command reply).offered = none) :
    Moves recovery [] (recovery.await command wait late).2 := by
  have asking := (Move.asked recovery).single.trans (work_moves _ wait.early)
  have sending := asking.trans
    (sendBounded_moves (command recovery.nextReply) (unoffered _) wait.sleeps _)
  rw [await]
  cases sent : sendBounded (command recovery.nextReply) wait.sleeps
      ({ recovery with nextReply := recovery.nextReply + 1 }.work wait.early) with
  | mk result after =>
    rw [sent] at sending
    cases result with
    | error error => exact sending
    | ok accepted =>
      have worked := sending.trans (work_moves after wait.steps)
      simp only []
      split
      · exact worked
      · exact worked

theorem clear_moves (recovery : RecoveryRuntime) (id : RecoveryId) (wait : Wait) :
    Moves recovery [] (recovery.clear id wait).2 := by
  have waited := (Move.dropped recovery id).single.trans (await_moves _ (.remove id) wait
    "recovery cleanup did not finish within three seconds" fun _ => rfl)
  rw [clear]
  cases cleared : ({ recovery with deferred := recovery.deferred.erase id }).await (.remove id) wait
      "recovery cleanup did not finish within three seconds" with
  | mk result after =>
    rw [cleared] at waited
    cases result with
    | error error => exact waited
    | ok record => exact waited.next (Move.released after _)

theorem waiting_taken (keyed : Keyed recovery.deferred) (id : RecoveryId) :
    recovery.waiting id =
      ({ recovery with deferred := ∅ }).waiting id ++ under id recovery.deferred.values := by
  rw [waiting, waiting, under_values keyed]
  simp

theorem retry_handsOver (filed : Filed recovery) (keyed : Keyed recovery.deferred)
    (pause : RecoveryId → List WriterStep) :
    Filed (recovery.retry pause) ∧ HandsOver recovery (recovery.retry pause) [] := by
  rcases (retry_moves { recovery with deferred := ∅ } pause recovery.deferred.values).handsOver
    ⟨filed.pending, filed.stored, filed.few⟩ with ⟨kept, handed, given, ordered⟩
  refine ⟨kept, handed, given, fun id => ?_⟩
  rw [waiting_taken keyed, under_nil, List.append_nil]
  exact ordered id

theorem flush_handsOver (filed : Filed recovery) (keyed : Keyed recovery.deferred)
    (pause : RecoveryId → List WriterStep) (wait : Wait) :
    Filed (recovery.flush pause wait).2 ∧ HandsOver recovery (recovery.flush pause wait).2 [] := by
  rcases retry_handsOver filed keyed pause with ⟨kept, ordered⟩
  rw [flush]
  split
  · exact ⟨kept, ordered⟩
  · rcases (await_moves (recovery.retry pause) .flush wait
      "recovery flush did not finish within three seconds" fun _ => rfl).handsOver kept with
      ⟨still, later⟩
    exact ⟨still, ordered.trans later⟩

end RecoveryRuntime

end KnotEditor.Desktop
