import KnotEditor.Desktop.RecoveryRuntime
import KnotEditor.Library.KeyedCollection
import KnotEditor.Library.WriteBehind

/-! Where the copy of a document is on its way to the recovery directory, and what the writer and
the window's calls do to it. -/

namespace KnotEditor.Desktop

open KeyedCollections WriteBehind

def Command.edit : Command → Option (Edit RecoveryId RecoveryRecord)
  | upsert record => some (.put record.id record)
  | remove id _ => some (.drop id)
  | _ => none

def Command.reply : Command → Option Nat
  | upsert _ => none
  | remove _ reply => some reply
  | flush reply => some reply
  | retention _ reply => some reply
  | claim _ reply => some reply

def edits (queue : List Command) : List (Edit RecoveryId RecoveryRecord) :=
  queue.filterMap Command.edit

namespace RecoveryRuntime

def disk (recovery : RecoveryRuntime) (id : RecoveryId) : Option RecoveryRecord :=
  recovery.pending[id]?.or recovery.stored[id]?

def latest (recovery : RecoveryRuntime) (id : RecoveryId) : Option RecoveryRecord :=
  recovery.deferred[id]?.or (afterAll id (recovery.disk id) (edits recovery.queue))

def Failed (recovery : RecoveryRuntime) (id : RecoveryId) : Prop :=
  ∃ message, (some id, message) ∈ recovery.results

structure Absent (recovery : RecoveryRuntime) (id : RecoveryId) : Prop where
  deferred : recovery.deferred[id]? = none
  pending : recovery.pending[id]? = none
  stored : recovery.stored[id]? = none
  queued : ∀ record, Command.upsert record ∈ recovery.queue → record.id ≠ id
  unclaimed : ∀ reply, Command.claim id reply ∉ recovery.queue

def Keyed (items : RecoveryItems) : Prop :=
  ∀ (id : RecoveryId) record, items[id]? = some record → record.id = id

structure Orderly (recovery : RecoveryRuntime) : Prop where
  deferred : Keyed recovery.deferred
  pending : Keyed recovery.pending
  stored : Keyed recovery.stored
  few : recovery.deferred.size ≤ maxPendingDocuments
  small : recovery.deferredBytes ≤ maxDeferredBytes
  asked : ∀ command ∈ recovery.queue, ∀ reply, command.reply = some reply →
    reply < recovery.nextReply
  replied : ∀ reply result, (reply, result) ∈ recovery.replies → reply < recovery.nextReply

theorem keyed_insert {items : RecoveryItems} (keyed : Keyed items) (record : RecoveryRecord) :
    Keyed (items.insert record.id record) := by
  intro id found held
  by_cases same : record.id = id
  · subst same
    rw [Std.ExtTreeMap.getElem?_insert_self] at held
    cases held
    rfl
  · rw [getElem?_insert_of_ne _ same] at held
    exact keyed id found held

theorem keyed_erase {items : RecoveryItems} (keyed : Keyed items) (erased : RecoveryId) :
    Keyed (items.erase erased) := by
  intro id found held
  by_cases same : erased = id
  · subst same
    rw [Std.ExtTreeMap.getElem?_erase_self] at held
    cases held
  · rw [getElem?_erase_of_ne _ same] at held
    exact keyed id found held

theorem keyed_empty : Keyed ∅ := by
  intro id record held
  simp at held

theorem orderly_start (sessionId : Option Uuid) (records : List RecoveryRecord)
    (localError : Option String) : Orderly { sessionId, records, localError } :=
  ⟨keyed_empty, keyed_empty, keyed_empty, Nat.zero_le _, Nat.zero_le _, by simp, by simp⟩

section Writer

variable {recovery : RecoveryRuntime}

structure Carried (before after : RecoveryRuntime) : Prop where
  orderly : Orderly after
  localError : after.localError = before.localError
  nextReply : after.nextReply = before.nextReply
  kept : ∀ id record, before.latest id = some record →
    after.latest id = some record ∨ after.Failed id
  failed : ∀ id, before.Failed id → after.Failed id
  absent : ∀ id, before.Absent id → after.Absent id

theorem Carried.refl (orderly : Orderly recovery) : Carried recovery recovery :=
  ⟨orderly, rfl, rfl, fun _ _ held => Or.inl held, fun _ failed => failed, fun _ absent => absent⟩

theorem Carried.trans {first second third : RecoveryRuntime} (one : Carried first second)
    (two : Carried second third) : Carried first third where
  orderly := two.orderly
  localError := two.localError.trans one.localError
  nextReply := two.nextReply.trans one.nextReply
  kept := by
    intro id record held
    rcases one.kept id record held with still | failed
    · exact two.kept id record still
    · exact Or.inr (two.failed id failed)
  failed := fun id failed => two.failed id (one.failed id failed)
  absent := fun id absent => two.absent id (one.absent id absent)

structure Worked (before after : RecoveryRuntime) : Prop extends Carried before after where
  deferred : after.deferred = before.deferred

structure Flushed (before after : RecoveryRuntime) (records : List RecoveryRecord) : Prop where
  deferred : after.deferred = before.deferred
  localError : after.localError = before.localError
  queue : after.queue = before.queue
  nextReply : after.nextReply = before.nextReply
  replies : after.replies = before.replies
  pending : after.pending = before.pending
  keyed : Keyed before.stored → Keyed after.stored
  failed : ∀ id, before.Failed id → after.Failed id
  written : ∀ id : RecoveryId,
    (∃ record ∈ records, record.id = id ∧
      (after.stored[id]? = some record ∨ after.Failed id)) ∨
    (∀ record ∈ records, record.id ≠ id) ∧ after.stored[id]? = before.stored[id]?

theorem report_failed (id : RecoveryId) (message : String) :
    (recovery.report id message).Failed id :=
  ⟨message, by simp [report]⟩

theorem failed_report (id other : RecoveryId) (message : String) (failed : recovery.Failed id) :
    (recovery.report other message).Failed id := by
  rcases failed with ⟨text, member⟩
  exact ⟨text, List.mem_append_left _ member⟩

theorem flushRecord_eq (verdict : RecoveryId → StoreVerdict) (error : Option String)
    (record : RecoveryRecord) :
    ∃ results, (flushRecord verdict (error, recovery) record).2 = { recovery with
        handed := recovery.handed ++ [record]
        stored := if (verdict record.id).reached then recovery.stored.insert record.id record
          else recovery.stored
        results } ∧
      (∀ entry ∈ recovery.results, entry ∈ results) ∧
      ((verdict record.id).reached = true ∨ ∃ message, (some record.id, message) ∈ results) := by
  rw [flushRecord]
  cases verdict record.id with
  | done => exact ⟨recovery.results, rfl, fun _ member => member, Or.inl rfl⟩
  | refused refusal reached =>
    refine ⟨recovery.results ++
      [(some record.id, s!"Document recovery failed: {refusal.text}")], ?_, fun _ member =>
      List.mem_append_left _ member, Or.inr ⟨_, List.mem_append_right _ List.mem_cons_self⟩⟩
    cases reached with
    | true => rfl
    | false => rfl

theorem flushRecord_flushed (verdict : RecoveryId → StoreVerdict) (error : Option String)
    (record : RecoveryRecord) :
    Flushed recovery (flushRecord verdict (error, recovery) record).2 [record] := by
  rcases flushRecord_eq verdict error record with ⟨results, shape, kept, told⟩
  rw [shape]
  refine ⟨rfl, rfl, rfl, rfl, rfl, rfl, ?_, ?_, ?_⟩
  · intro keyed
    change Keyed (if _ then _ else _)
    split
    · exact keyed_insert keyed record
    · exact keyed
  · rintro id ⟨message, member⟩
    exact ⟨message, kept _ member⟩
  · intro id
    by_cases same : record.id = id
    · subst same
      refine Or.inl ⟨record, by simp, rfl, ?_⟩
      rcases told with reached | failed
      · refine Or.inl ?_
        simp only [reached, if_true, Std.ExtTreeMap.getElem?_insert_self]
      · exact Or.inr failed
    · refine Or.inr ⟨by simpa using same, ?_⟩
      change (if _ then _ else _ : RecoveryItems)[id]? = _
      split
      · exact getElem?_insert_of_ne _ same record
      · rfl

theorem Flushed.append {first second third : RecoveryRuntime} {front : List RecoveryRecord}
    {record : RecoveryRecord} (one : Flushed first second front)
    (two : Flushed second third [record]) : Flushed first third (front ++ [record]) where
  deferred := two.deferred.trans one.deferred
  localError := two.localError.trans one.localError
  queue := two.queue.trans one.queue
  nextReply := two.nextReply.trans one.nextReply
  replies := two.replies.trans one.replies
  pending := two.pending.trans one.pending
  keyed := fun keyed => two.keyed (one.keyed keyed)
  failed := fun id failed => two.failed id (one.failed id failed)
  written := by
    intro id
    rcases two.written id with ⟨last, member, same, stored⟩ | ⟨other, stored⟩
    · exact Or.inl ⟨last, List.mem_append_right _ member, same, stored⟩
    · rcases one.written id with ⟨early, member, same, before⟩ | ⟨others, before⟩
      · refine Or.inl ⟨early, List.mem_append_left _ member, same, ?_⟩
        exact before.imp stored.trans (two.failed id)
      · refine Or.inr ⟨?_, stored.trans before⟩
        intro either member
        rcases List.mem_append.mp member with early | late
        · exact others either early
        · exact other either late

theorem flushRecords_flushed (recovery : RecoveryRuntime) (verdict : RecoveryId → StoreVerdict) (error : Option String)
    (records : List RecoveryRecord) :
    Flushed recovery (records.foldl (flushRecord verdict) (error, recovery)).2 records := by
  induction records using List.reverseRecOn with
  | nil =>
    exact ⟨rfl, rfl, rfl, rfl, rfl, rfl, fun keyed => keyed, fun _ failed => failed,
      fun _ => Or.inr ⟨by simp, rfl⟩⟩
  | append_singleton front record ih =>
    rw [List.foldl_append, List.foldl_cons, List.foldl_nil]
    exact ih.append (flushRecord_flushed verdict _ record)

theorem flushPending_eq (verdict : RecoveryId → StoreVerdict) :
    (recovery.flushPending verdict).2 = (recovery.pending.values.foldl (flushRecord verdict)
      (none, { recovery with pending := ∅ })).2 := by
  rw [flushPending]
  split <;> rfl

structure WroteOut (before after : RecoveryRuntime) : Prop where
  deferred : after.deferred = before.deferred
  localError : after.localError = before.localError
  queue : after.queue = before.queue
  nextReply : after.nextReply = before.nextReply
  replies : after.replies = before.replies
  pending : after.pending = ∅
  keyed : Keyed before.stored → Keyed after.stored
  failed : ∀ id, before.Failed id → after.Failed id
  disk : ∀ id, after.disk id = before.disk id ∨ after.Failed id
  absent : ∀ id : RecoveryId, before.pending[id]? = none → after.stored[id]? = before.stored[id]?

theorem flushPending_wroteOut (recovery : RecoveryRuntime) (verdict : RecoveryId → StoreVerdict)
    (keyed : Keyed recovery.pending) :
    WroteOut recovery (recovery.flushPending verdict).2 := by
  rw [flushPending_eq]
  have flushed := flushRecords_flushed { recovery with pending := ∅ } verdict none
    recovery.pending.values
  refine ⟨flushed.deferred, flushed.localError, flushed.queue, flushed.nextReply, flushed.replies,
    flushed.pending, flushed.keyed, flushed.failed, ?_, ?_⟩
  · intro id
    have empty := flushed.pending
    simp only [disk, empty, Std.ExtTreeMap.getElem?_empty, Option.none_or]
    rcases flushed.written id with ⟨record, member, same, stored⟩ | ⟨others, stored⟩
    · rcases (mem_values_iff _ _).mp member with ⟨key, held⟩
      have named := keyed key record held
      rw [same] at named
      subst named
      rw [held]
      exact stored
    · cases held : recovery.pending[id]? with
      | none => exact Or.inl stored
      | some record =>
        exact absurd (keyed id record held)
          (others record ((mem_values_iff _ _).mpr ⟨id, held⟩))
  · intro id none
    rcases flushed.written id with ⟨record, member, same, _⟩ | ⟨_, stored⟩
    · rcases (mem_values_iff _ _).mp member with ⟨key, held⟩
      have named := keyed key record held
      rw [same] at named
      subst named
      rw [held] at none
      cases none
    · exact stored

def outcome (id : RecoveryId) (held : Option RecoveryRecord) (command : Command) :
    Option RecoveryRecord :=
  (command.edit).elim held (after id held)

theorem latest_cons (id : RecoveryId) (command : Command) (rest : List Command)
    (queued : recovery.queue = command :: rest) :
    recovery.latest id = recovery.deferred[id]?.or
      (afterAll id (outcome id (recovery.disk id) command) (edits rest)) := by
  rw [latest, queued, edits, List.filterMap_cons, outcome]
  cases command.edit with
  | none => rfl
  | some edit => rfl

structure Received (before after : RecoveryRuntime) (command : Command) : Prop where
  deferred : after.deferred = before.deferred
  localError : after.localError = before.localError
  queue : after.queue = before.queue
  nextReply : after.nextReply = before.nextReply
  pending : Keyed after.pending
  stored : Keyed after.stored
  replied : ∀ reply result, (reply, result) ∈ after.replies →
    command.reply = some reply ∨ (reply, result) ∈ before.replies
  failed : ∀ id, before.Failed id → after.Failed id
  disk : ∀ id, after.disk id = outcome id (before.disk id) command ∨ after.Failed id ∨
    outcome id (before.disk id) command = none
  absent : ∀ id, before.disk id = none → (∀ record, command = .upsert record → record.id ≠ id) →
    (∀ reply, command ≠ .claim id reply) → after.pending[id]? = none ∧ after.stored[id]? = none

theorem disk_eq_none_iff (id : RecoveryId) :
    recovery.disk id = none ↔ recovery.pending[id]? = none ∧ recovery.stored[id]? = none := by
  rw [disk, Option.or_eq_none_iff]

theorem disk_of_empty (empty : recovery.pending = ∅) (id : RecoveryId) :
    recovery.disk id = recovery.stored[id]? := by
  simp [disk, empty]

theorem received_of_wroteOut {before after : RecoveryRuntime} {command : Command}
    (unedited : command.edit = none) (keyed : Keyed before.stored)
    (replied : ∀ reply result, (reply, result) ∈ after.replies →
      command.reply = some reply ∨ (reply, result) ∈ before.replies)
    (wrote : WroteOut before { after with replies := before.replies }) :
    Received before after command where
  deferred := wrote.deferred
  localError := wrote.localError
  queue := wrote.queue
  nextReply := wrote.nextReply
  pending := by
    rw [show after.pending = ∅ from wrote.pending]
    exact keyed_empty
  stored := wrote.keyed keyed
  replied := replied
  failed := wrote.failed
  disk := by
    intro id
    rw [outcome, unedited]
    exact (wrote.disk id).imp_right Or.inl
  absent := by
    intro id none _ _
    rcases (disk_eq_none_iff id).mp none with ⟨pending, stored⟩
    rw [show after.pending = ∅ from wrote.pending]
    exact ⟨by simp, (wrote.absent id pending).trans stored⟩

theorem Received.wroteOut {before middle after : RecoveryRuntime} {command : Command}
    (received : Received before middle command) (wrote : WroteOut middle after) :
    Received before after command where
  deferred := wrote.deferred.trans received.deferred
  localError := wrote.localError.trans received.localError
  queue := wrote.queue.trans received.queue
  nextReply := wrote.nextReply.trans received.nextReply
  pending := by
    rw [wrote.pending]
    exact keyed_empty
  stored := wrote.keyed received.stored
  replied := by
    rw [wrote.replies]
    exact received.replied
  failed := fun id failed => wrote.failed id (received.failed id failed)
  disk := by
    intro id
    rcases wrote.disk id with same | failed
    · rw [same]
      exact (received.disk id).imp_right (Or.imp_left (wrote.failed id))
    · exact Or.inr (Or.inl failed)
  absent := by
    intro id none other unclaimed
    rcases received.absent id none other unclaimed with ⟨pending, stored⟩
    rw [wrote.pending]
    exact ⟨by simp, (wrote.absent id pending).trans stored⟩

theorem receive_upsert (step : WriterStep) (record : RecoveryRecord)
    (pending : Keyed recovery.pending) (stored : Keyed recovery.stored) :
    Received recovery (recovery.receive step (.upsert record)) (.upsert record) := by
  rw [receive]
  split
  · refine ⟨rfl, rfl, rfl, rfl, pending, stored, fun _ _ member => Or.inr member,
      fun id => failed_report id _ _, ?_, fun id none _ _ => (disk_eq_none_iff id).mp none⟩
    intro id
    by_cases same : record.id = id
    · subst same
      exact Or.inr (Or.inl (report_failed _ _))
    · exact Or.inl (after_other (.put record.id record) same).symm
  · have held : Received recovery
        { recovery with pending := recovery.pending.insert record.id record } (.upsert record) := by
      refine ⟨rfl, rfl, rfl, rfl, keyed_insert pending record, stored,
        fun _ _ member => Or.inr member, fun _ failed => failed, ?_, ?_⟩
      · intro id
        refine Or.inl ?_
        by_cases same : record.id = id
        · subst same
          simp [disk, outcome, Command.edit, after, Edit.key, Edit.outcome]
        · rw [disk, getElem?_insert_of_ne _ same]
          exact (after_other (.put record.id record) same).symm
      · intro id none other _
        rw [disk_eq_none_iff] at none
        exact ⟨(getElem?_insert_of_ne _ (other record rfl) record).trans none.1, none.2⟩
    by_cases elapsed : step.elapsed = true
    · simp only [elapsed, if_true]
      exact held.wroteOut (flushPending_wroteOut _ step.verdict (keyed_insert pending record))
    · simp only [if_neg elapsed]
      exact held

theorem storeRemove_eq (verdict : StoreVerdict) (id : RecoveryId) :
    recovery.storeRemove verdict id = { recovery with
      stored := if verdict.reached then recovery.stored.erase id else recovery.stored } := by
  rw [storeRemove]
  split <;> rfl

theorem receive_remove (step : WriterStep) (id : RecoveryId) (reply : Nat)
    (pending : Keyed recovery.pending) (stored : Keyed recovery.stored) :
    Received recovery (recovery.receive step (.remove id reply)) (.remove id reply) := by
  rw [receive, storeRemove_eq]
  have others : ∀ query : RecoveryId, id ≠ query →
      (if (step.verdict id).reached then recovery.stored.erase id else recovery.stored)[query]? =
        recovery.stored[query]? := by
    intro query differs
    split
    · exact getElem?_erase_of_ne _ differs
    · rfl
  refine ⟨rfl, rfl, rfl, rfl, keyed_erase pending id, ?_, ?_, fun _ failed => failed, ?_, ?_⟩
  · change Keyed (if _ then _ else _)
    split
    · exact keyed_erase stored id
    · exact stored
  · intro query result member
    rcases List.mem_cons.mp member with first | later
    · cases first
      exact Or.inl rfl
    · exact Or.inr later
  · intro query
    by_cases same : id = query
    · subst same
      refine Or.inr (Or.inr ?_)
      simp [outcome, Command.edit, after, Edit.key, Edit.outcome]
    · refine Or.inl ?_
      refine Eq.trans ?_ (after_other (.drop id) same).symm
      change (recovery.pending.erase id)[query]?.or _ = _
      rw [getElem?_erase_of_ne _ same]
      exact congrArg (recovery.pending[query]?.or ·) (others query same)
  · intro query none _ _
    rw [disk_eq_none_iff] at none
    by_cases same : id = query
    · subst same
      refine ⟨Std.ExtTreeMap.getElem?_erase_self, ?_⟩
      change (if _ then _ else _ : RecoveryItems)[id]? = _
      split
      · exact Std.ExtTreeMap.getElem?_erase_self
      · exact none.2
    · exact ⟨(getElem?_erase_of_ne _ same).trans none.1, (others query same).trans none.2⟩

theorem receive_answer (command : Command) (reply : Nat)
    (result : Except String (Option RecoveryRecord)) (pending : Keyed recovery.pending)
    (stored : Keyed recovery.stored) (asked : command.reply = some reply)
    (unedited : command.edit = none) :
    Received recovery (recovery.answer reply result) command := by
  refine ⟨rfl, rfl, rfl, rfl, pending, stored, ?_, fun _ failed => failed, ?_,
    fun id none _ _ => (disk_eq_none_iff id).mp none⟩
  · intro query result member
    rcases List.mem_cons.mp member with first | later
    · cases first
      exact Or.inl asked
    · exact Or.inr later
  · intro id
    rw [outcome, unedited]
    exact Or.inl rfl

theorem received_claim (reply : Nat) (record : RecoveryRecord) {other : Option RecoveryRecord}
    (found : recovery.stored[record.id]?.or other = some record) (pending : Keyed recovery.pending)
    (stored : Keyed recovery.stored) :
    Received recovery ({ recovery with
      stored := recovery.stored.insert record.id record }.answer reply (.ok (some record)))
      (.claim record.id reply) := by
  refine ⟨rfl, rfl, rfl, rfl, pending, keyed_insert stored record, ?_, fun _ failed => failed,
    ?_, ?_⟩
  · intro query result member
    rcases List.mem_cons.mp member with first | later
    · cases first
      exact Or.inl rfl
    · exact Or.inr later
  · intro query
    change recovery.pending[query]?.or (recovery.stored.insert record.id record)[query]? =
      recovery.disk query ∨ _ ∨ recovery.disk query = none
    by_cases same : record.id = query
    · subst same
      rw [Std.ExtTreeMap.getElem?_insert_self, disk]
      rcases Option.or_eq_some_iff.mp found with own | ⟨unheld, _⟩
      · exact Or.inl (by rw [own])
      · rw [unheld]
        cases recovery.pending[record.id]? with
        | none => exact Or.inr (Or.inr rfl)
        | some held => exact Or.inl rfl
    · rw [getElem?_insert_of_ne _ same]
      exact Or.inl rfl
  · intro query none _ unclaimed
    rw [disk_eq_none_iff] at none
    have differs : record.id ≠ query := by
      rintro rfl
      exact unclaimed reply rfl
    exact ⟨none.1, (getElem?_insert_of_ne _ differs record).trans none.2⟩

theorem receive_claim (step : WriterStep) (id : RecoveryId) (reply : Nat)
    (pending : Keyed recovery.pending) (stored : Keyed recovery.stored) :
    Received recovery (recovery.receive step (.claim id reply)) (.claim id reply) := by
  have answered := fun result =>
    receive_answer (.claim id reply) reply result pending stored rfl rfl
  rw [receive]
  cases step.verdict id with
  | refused error reached => exact answered _
  | done =>
    cases found : recovery.stored[id]?.or step.claimed with
    | none => exact answered _
    | some record =>
      by_cases same : record.id = id
      · subst same
        simp only [ne_eq, not_true_eq_false, if_false]
        exact received_claim reply record found pending stored
      · simp only [ne_eq, same, not_false_eq_true, if_true]
        exact answered _

theorem receive_received (recovery : RecoveryRuntime) (step : WriterStep) (command : Command)
    (pending : Keyed recovery.pending) (stored : Keyed recovery.stored) :
    Received recovery (recovery.receive step command) command := by
  cases command with
  | upsert record => exact receive_upsert step record pending stored
  | remove id reply => exact receive_remove step id reply pending stored
  | flush reply =>
    have wrote := flushPending_wroteOut recovery step.verdict pending
    refine received_of_wroteOut rfl stored ?_ ⟨wrote.deferred, wrote.localError, wrote.queue,
      wrote.nextReply, rfl, wrote.pending, wrote.keyed, wrote.failed, wrote.disk, wrote.absent⟩
    intro query result member
    rcases List.mem_cons.mp member with first | later
    · cases first
      exact Or.inl rfl
    · rw [wrote.replies] at later
      exact Or.inr later
  | retention policy reply => exact receive_answer _ reply _ pending stored rfl rfl
  | claim id reply => exact receive_claim step id reply pending stored

theorem writerStep_worked (orderly : Orderly recovery) (step : WriterStep) :
    Worked recovery (recovery.writerStep step) := by
  rw [writerStep]
  cases queued : recovery.queue with
  | nil =>
    have wrote := flushPending_wroteOut recovery step.verdict orderly.pending
    have emptied : (recovery.flushPending step.verdict).2.queue = [] := wrote.queue.trans queued
    refine ⟨⟨⟨?_, ?_, wrote.keyed orderly.stored, ?_, ?_, by simp [emptied], ?_⟩,
      wrote.localError, wrote.nextReply, ?_, wrote.failed, ?_⟩, wrote.deferred⟩
    · rw [wrote.deferred]
      exact orderly.deferred
    · rw [wrote.pending]
      exact keyed_empty
    · rw [wrote.deferred]
      exact orderly.few
    · rw [deferredBytes, wrote.deferred]
      exact orderly.small
    · rw [wrote.replies, wrote.nextReply]
      exact orderly.replied
    · intro id record held
      rcases wrote.disk id with same | failed
      · refine Or.inl ?_
        rw [latest, wrote.deferred, same, wrote.queue]
        exact held
      · exact Or.inr failed
    · intro id absent
      rcases wrote with ⟨deferred, _, queue, _, _, pending, _, _, _, quiet⟩
      refine ⟨?_, ?_, (quiet id absent.pending).trans absent.stored, ?_, ?_⟩
      · rw [deferred]
        exact absent.deferred
      · rw [pending]
        simp
      · rw [queue]
        exact absent.queued
      · rw [queue]
        exact absent.unclaimed
  | cons command rest =>
    have received := receive_received { recovery with queue := rest } step command
      orderly.pending orderly.stored
    have behind : ∀ later ∈ rest, later ∈ recovery.queue := by
      intro later member
      rw [queued]
      exact List.mem_cons_of_mem _ member
    refine ⟨⟨⟨?_, received.pending, received.stored, ?_, ?_, ?_, ?_⟩, received.localError,
      received.nextReply, ?_, received.failed, ?_⟩, received.deferred⟩
    · rw [received.deferred]
      exact orderly.deferred
    · rw [received.deferred]
      exact orderly.few
    · rw [deferredBytes, received.deferred]
      exact orderly.small
    · rw [received.queue, received.nextReply]
      exact fun later member => orderly.asked later (behind later member)
    · rw [received.nextReply]
      intro reply result member
      rcases received.replied reply result member with asked | before
      · exact orderly.asked command (by rw [queued]; exact List.mem_cons_self) reply asked
      · exact orderly.replied reply result before
    · intro id record held
      rw [latest_cons id command rest queued] at held
      rw [latest, received.deferred, received.queue]
      rcases received.disk id with same | failed | dropped
      · rw [same]
        exact Or.inl held
      · exact Or.inr failed
      · refine Or.inl ?_
        have left : outcome id (recovery.disk id) command = none := dropped
        rw [left] at held
        rcases Option.or_eq_some_iff.mp held with early | ⟨none, late⟩
        · exact Option.or_eq_some_iff.mpr (Or.inl early)
        · exact Option.or_eq_some_iff.mpr (Or.inr ⟨none, afterAll_some_of_none late⟩)
    · intro id absent
      have other : ∀ record, command = .upsert record → record.id ≠ id := by
        rintro record rfl
        exact absent.queued record (by rw [queued]; exact List.mem_cons_self)
      have unclaimed : ∀ reply, command ≠ .claim id reply := by
        rintro reply rfl
        exact absent.unclaimed reply (by rw [queued]; exact List.mem_cons_self)
      rcases received.absent id ((disk_eq_none_iff id).mpr ⟨absent.pending, absent.stored⟩) other
        unclaimed with ⟨pending, stored⟩
      refine ⟨?_, pending, stored, ?_, ?_⟩
      · rw [received.deferred]
        exact absent.deferred
      · rw [received.queue]
        exact fun record member => absent.queued record (behind _ member)
      · rw [received.queue]
        exact fun reply member => absent.unclaimed reply (behind _ member)

theorem work_worked (orderly : Orderly recovery) (steps : List WriterStep) :
    Worked recovery (recovery.work steps) := by
  induction steps generalizing recovery with
  | nil => exact ⟨Carried.refl orderly, rfl⟩
  | cons step rest ih =>
    have first := writerStep_worked orderly step
    have later := ih first.orderly
    exact ⟨first.toCarried.trans later.toCarried, later.deferred.trans first.deferred⟩

end Writer

end RecoveryRuntime

end KnotEditor.Desktop
