import KnotEditor.Desktop.RecoveryStore
import KnotEditor.Library.Fallible
import KnotEditor.Library.Run
import Mathlib.Data.List.Perm.Basic

/-! No window touches the recovery records of another window that is still open. -/

namespace KnotEditor.Desktop

open Fallible

variable (host : RecoveryHost)

def Clean (listing : RecoveryListing) : Prop :=
  listing.complete = true ∧ hasStorageIssue listing = false

variable (listing : RecoveryListing) (directory : RecoveryDirectory) {α : Type}
  (action : RecoveryAction) (store : RecoveryStore) (session : Uuid)

theorem addIssue_unclean (issue : RecoveryIssue) (storage : issue.kind ≠ .retention)
    : ¬ Clean (addIssue listing issue) := by
  rintro ⟨complete, unaffected⟩
  rw [addIssue] at complete unaffected
  by_cases room : listing.issues.length < maxIssues
  · rw [if_pos room] at unaffected
    simp [hasStorageIssue, storage] at unaffected
  · rw [if_neg room] at complete
    split at complete <;> cases complete

theorem addIssue_incomplete (issue : RecoveryIssue) (incomplete : listing.complete = false)
    : ¬ Clean (addIssue listing issue) := by
  rintro ⟨complete, _⟩
  rw [addIssue] at complete
  split at complete
  · rw [incomplete] at complete
    cases complete
  · split at complete <;> cases complete

theorem addIssue_records (issue : RecoveryIssue) :
    (addIssue listing issue).records = listing.records := by
  rw [addIssue]
  split
  · rfl
  · split <;> rfl

theorem inspect_clean (id : RecoveryId) (record : RecoveryRecord)
    (clean : Clean (inspect host listing id record)) :
    Clean listing ∧ record.id = id ∧
      (inspect host listing id record).records = listing.records ++ [record] := by
  rw [inspect] at clean ⊢
  rw [readRecord] at clean ⊢
  by_cases large : fileLen host record > hardMaxItemBytes
  · rw [if_pos large] at clean
    exact absurd clean (addIssue_unclean _ _ nofun)
  · rw [if_neg large] at clean ⊢
    simp only at clean ⊢
    by_cases mismatched : record.id ≠ id
    · rw [if_pos mismatched] at clean
      exact absurd clean (addIssue_unclean _ _ nofun)
    · rw [if_neg mismatched] at clean ⊢
      exact ⟨clean, Decidable.not_not.mp mismatched, rfl⟩

theorem scan_clean (entries : List (RecoveryId × RecoveryRecord)) :
    ∀ (scannedEntries scannedBytes : Nat) (listing : RecoveryListing),
      Clean (scan host entries scannedEntries scannedBytes listing) →
        Clean listing ∧ (∀ entry ∈ entries, entry.2.id = entry.1) ∧
          (scan host entries scannedEntries scannedBytes listing).records =
            listing.records ++ entries.map Prod.snd := by
  induction entries with
  | nil =>
    intro scannedEntries scannedBytes listing clean
    exact ⟨clean, by intros; contradiction, (List.append_nil _).symm⟩
  | cons entry rest ih =>
    rcases entry with ⟨id, record⟩
    intro scannedEntries scannedBytes listing clean
    rw [scan] at clean ⊢
    by_cases counted : scannedEntries + 1 > maxScanEntries
    · rw [if_pos counted] at clean
      exact absurd clean (addIssue_incomplete _ _ rfl)
    · rw [if_neg counted] at clean ⊢
      by_cases large : fileLen host record > maxScanBytes - scannedBytes
      · rw [if_pos large] at clean
        exact absurd clean (addIssue_incomplete _ _ rfl)
      · rw [if_neg large] at clean ⊢
        rcases ih _ _ _ clean with ⟨inspectedClean, named, listed⟩
        rcases inspect_clean host listing id record inspectedClean with ⟨before, same, appended⟩
        refine ⟨before, ?_, ?_⟩
        · intro entry member
          rcases List.mem_cons.mp member with rfl | later
          · exact same
          · exact named entry later
        · rw [listed, appended, List.append_assoc, List.singleton_append, List.map_cons]

namespace RecoveryStore

variable (store : RecoveryStore) (live : Uuid → Bool) (items : RecoveryItems)
  (record : RecoveryRecord) (records : List RecoveryRecord) (id : RecoveryId) (now : Nat)
  (victims : List RecoveryId)

theorem unscanned_records : store.unscanned.records = [] := by
  rw [unscanned]
  cases store.startupIssue with
  | none => rfl
  | some issue => exact addIssue_records {} issue

theorem inspected_perm (read : store.inspected host items = .ok records) :
    records.Perm (items.toList.map Prod.snd) ∧ ∀ entry ∈ items.toList, entry.2.id = entry.1 := by
  rw [inspected] at read
  by_cases unclean : (!(store.list host items).complete ||
      hasStorageIssue (store.list host items)) = true
  · rw [if_pos unclean] at read
    cases read
  · rw [if_neg unclean] at read
    cases read
    rw [Bool.or_eq_true, not_or, Bool.not_eq_true, Bool.not_eq_true, Bool.not_eq_false'] at unclean
    rcases scan_clean host items.toList 0 0 _ unclean with ⟨_, named, listed⟩
    rw [show store.unscanned.records = [] from unscanned_records store, List.nil_append] at listed
    refine ⟨?_, named⟩
    rw [← listed]
    exact List.mergeSort_perm _ _

theorem ids_nodup (named : ∀ entry ∈ items.toList, entry.2.id = entry.1) :
    ((items.toList.map Prod.snd).map RecoveryRecord.id).Nodup := by
  have keys : (items.toList.map Prod.snd).map RecoveryRecord.id = items.keys := by
    rw [← Std.ExtTreeMap.map_fst_toList_eq_keys, List.map_map]
    exact List.map_congr_left named
  rw [keys]
  exact Std.ExtTreeMap.nodup_keys

theorem inspected_ok (read : store.inspected host items = .ok records) :
    (∀ record ∈ records, items[record.id]? = some record) ∧
      (records.map RecoveryRecord.id).Nodup := by
  obtain ⟨listed, named⟩ := inspected_perm host store items records read
  constructor
  · intro record member
    rcases List.mem_map.mp (listed.mem_iff.mp member) with ⟨entry, held, rfl⟩
    rw [named entry held]
    exact Std.ExtTreeMap.mem_toList_iff_getElem?_eq_some.mp held
  · exact ((listed.map RecoveryRecord.id).nodup_iff).mpr (ids_nodup items named)

def Abandoned (store : RecoveryStore) (live : Uuid → Bool) (records : List RecoveryRecord)
    (victims : List RecoveryId) : Prop :=
  ∃ gone kept, records.Perm (gone ++ kept) ∧ victims = gone.map RecoveryRecord.id ∧
    ∀ record ∈ gone, store.isSessionLive live record.sessionId = false

theorem filter_eq_cons_eraseIdx {items : List RecoveryRecord} {may : RecoveryRecord → Bool}
    {index : Nat} (found : items.findIdx? may = some index) (bound : index < items.length) :
    items.filter may = items[index] :: (items.eraseIdx index).filter may := by
  obtain ⟨_, chosen, earlier⟩ := List.findIdx?_eq_some_iff_getElem.mp found
  have none_ : (items.take index).filter may = [] := by
    rw [List.filter_eq_nil_iff]
    intro item member
    obtain ⟨i, below, rfl⟩ := List.mem_take_iff_getElem.mp member
    exact earlier i (by omega)
  have split : items = items.take index ++ items[index] :: items.drop (index + 1) := by
    rw [List.getElem_cons_drop bound, List.take_append_drop]
  rw [List.eraseIdx_eq_take_drop_succ, List.filter_append, none_, List.nil_append]
  conv => lhs; rw [split, List.filter_append, none_, List.nil_append, List.filter_cons, if_pos chosen]

theorem evict_ok (exceeds : Nat → Nat → Bool) (detail : String) (records : List RecoveryRecord)
    (size : Nat) (victims : List RecoveryId) :
    ∀ chosen, store.evict host live exceeds detail records size victims = .ok chosen →
      ∃ gone kept, records.Perm (gone ++ kept) ∧ chosen = victims ++ gone.map RecoveryRecord.id ∧
        records.filter (fun record => !store.isSessionLive live record.sessionId) =
          gone ++ kept.filter (fun record => !store.isSessionLive live record.sessionId) ∧
        exceeds kept.length (size - (gone.map (retainedLen host)).sum) = false := by
  fun_induction evict host store live exceeds detail records size victims with
  | case1 records size victims exceeds none =>
    intro chosen stuck
    cases stuck
  | case2 records size victims exceeds index found bound shorter ih =>
    intro chosen finished
    rcases ih chosen finished with ⟨gone, kept, shape, same, order, fits⟩
    refine ⟨records[index] :: gone, kept, ?_, ?_, ?_, ?_⟩
    · exact (List.getElem_cons_eraseIdx_perm bound).symm.trans (shape.cons _)
    · rw [same, List.map_cons, List.append_assoc, List.singleton_append]
    · rw [filter_eq_cons_eraseIdx found bound, order, List.cons_append]
    · rw [List.map_cons, List.sum_cons, ← Nat.sub_sub]
      exact fits
  | case3 records size victims fits =>
    intro chosen finished
    cases finished
    exact ⟨[], records, List.Perm.refl _, (List.append_nil _).symm, rfl, by simpa using fits⟩

theorem isCurrent_of_live (record : RecoveryRecord)
    (lives : store.isSessionLive live record.sessionId = true) :
    store.isCurrent live now record = true := by
  rw [isCurrent]
  cases store.retention.maxAgeDays with
  | none => rfl
  | some days => simp [lives]

theorem ended_of_expired (record : RecoveryRecord)
    (expired : store.isCurrent live now record = false) :
    store.isSessionLive live record.sessionId = false := by
  by_contra lives
  rw [isCurrent_of_live store live now record (by simpa using lives)] at expired
  cases expired

/-- What retention decides over the listed records: those that go are of ended sessions, those that
stay fit, and none that goes before its time was updated after one of an ended session that stays. -/
structure Decided (store : RecoveryStore) (live : Uuid → Bool) (exceeds : Nat → Nat → Bool)
    (now : Nat) (records gone kept : List RecoveryRecord) : Prop where
  parted : records.Perm (gone ++ kept)
  ended : ∀ record ∈ gone, store.isSessionLive live record.sessionId = false
  fits : exceeds kept.length ((kept.map (retainedLen host)).sum) = false
  oldestFirst : ∀ evicted ∈ gone, store.isCurrent live now evicted = true → ∀ survivor ∈ kept,
    store.isSessionLive live survivor.sessionId = false →
      evicted.updatedAtMs ≤ survivor.updatedAtMs

theorem mergeSort_updatedBefore :
    (records.mergeSort updatedBefore).Pairwise fun earlier later =>
      earlier.updatedAtMs ≤ later.updatedAtMs := by
  have sorted : (records.mergeSort updatedBefore).Pairwise fun earlier later =>
      updatedBefore earlier later = true :=
    List.pairwise_mergeSort (by simp only [updatedBefore, decide_eq_true_eq]; omega)
      (by simp only [updatedBefore, Bool.or_eq_true, decide_eq_true_eq]; omega) records
  simpa [updatedBefore] using sorted

theorem victimsOf_decided (exceeds : Nat → Nat → Bool) (detail : String) (now : Nat)
    (records : List RecoveryRecord) (victims : List RecoveryId)
    (chosen : store.victimsOf host live exceeds detail now records = .ok victims) :
    ∃ gone kept, victims = gone.map RecoveryRecord.id ∧
      Decided host store live exceeds now records gone kept := by
  rw [victimsOf] at chosen
  obtain ⟨gone, kept, shape, same, order, fits⟩ :=
    evict_ok host store live exceeds detail _ _ _ victims chosen
  have current := (List.mergeSort_perm (records.filter (store.isCurrent live now))
    updatedBefore).symm.trans shape
  have sizes := (current.map (retainedLen host)).sum_nat
  rw [List.map_append, List.sum_append_nat] at sizes
  rw [sizes, Nat.add_sub_cancel_left] at fits
  have dead : ∀ record ∈ gone, store.isSessionLive live record.sessionId = false := by
    intro record member
    have taken := List.mem_append_left
      (kept.filter fun record => !store.isSessionLive live record.sessionId) member
    rw [← order] at taken
    simpa using (List.mem_filter.mp taken).2
  refine ⟨(records.filter fun record => !store.isCurrent live now record) ++ gone, kept,
    by rw [same, List.map_append], ?_, ?_, fits, ?_⟩
  · have parted := (List.filter_append_perm (store.isCurrent live now) records).symm
    rw [List.append_assoc]
    exact parted.trans (List.perm_append_comm.trans (current.append_left _))
  · intro record member
    rcases List.mem_append.mp member with expired | evicted
    · exact ended_of_expired store live now record (by simpa using (List.mem_filter.mp expired).2)
    · exact dead record evicted
  · intro evicted member unexpired survivor stays ended
    have early : evicted ∈ gone := by
      rcases List.mem_append.mp member with expired | early
      · have old := (List.mem_filter.mp expired).2
        rw [unexpired] at old
        cases old
      · exact early
    -- The loop takes the ended sessions' records in the order of the sorted list.
    have sorted := (mergeSort_updatedBefore (records.filter (store.isCurrent live now))).filter
      (fun record => !store.isSessionLive live record.sessionId)
    rw [order, List.pairwise_append] at sorted
    exact sorted.2.2 evicted early survivor (List.mem_filter.mpr ⟨stays, by simp [ended]⟩)

theorem victimsOf_ok (exceeds : Nat → Nat → Bool) (detail : String) (now : Nat)
    (records : List RecoveryRecord) (victims : List RecoveryId)
    (chosen : store.victimsOf host live exceeds detail now records = .ok victims) :
    Abandoned store live records victims := by
  obtain ⟨gone, kept, same, decided⟩ :=
    victimsOf_decided host store live exceeds detail now records victims chosen
  exact ⟨gone, kept, decided.parted, same, decided.ended⟩

theorem removeFiles_ok :
    ∀ items : RecoveryItems, victims.Nodup →
      (∀ id ∈ victims, ∃ record, items[id]? = some record) →
        ∃ after, removeFiles items victims = (.ok (), after) ∧
          ∀ id : RecoveryId, after[id]? = if id ∈ victims then none else items[id]? := by
  induction victims with
  | nil =>
    intro items _ _
    exact ⟨items, rfl, fun id => by simp⟩
  | cons victim rest ih =>
    intro items distinct present
    rcases List.nodup_cons.mp distinct with ⟨fresh, restDistinct⟩
    rcases present victim List.mem_cons_self with ⟨record, held⟩
    have remaining : ∀ id ∈ rest, ∃ record, (items.erase victim)[id]? = some record := by
      intro id member
      rcases present id (List.mem_cons_of_mem _ member) with ⟨found, here⟩
      have differs : victim ≠ id := fun same => fresh (same ▸ member)
      exact ⟨found, by rw [Std.ExtTreeMap.getElem?_erase, if_neg (by simpa using differs), here]⟩
    rcases ih (items.erase victim) restDistinct remaining with ⟨after, done, lookup⟩
    refine ⟨after, ?_, ?_⟩
    · rw [removeFiles, removeFile, held]
      exact done
    · intro id
      rw [lookup id, Std.ExtTreeMap.getElem?_erase]
      by_cases same : victim = id
      · subst same
        simp
      · simp [same, Ne.symm same]

structure Respects (store : RecoveryStore) (live : Uuid → Bool) (items : RecoveryItems)
    {α : Type} (outcome : Outcome α) : Prop where
  foreign : ∀ (id : RecoveryId) record, items[id]? = some record →
    store.ownedByAnother live record = true → outcome.items[id]? = some record
  refused : ∀ error, outcome.answer = .error error → outcome.items = items
  session : outcome.store.sessionId = store.sessionId

theorem abandoned_present (stored : ∀ record ∈ records, items[record.id]? = some record)
    (distinct : (records.map RecoveryRecord.id).Nodup)
    (abandoned : Abandoned store live records victims) :
    victims.Nodup ∧ ∀ id ∈ victims, ∃ record, items[id]? = some record ∧
      store.isSessionLive live record.sessionId = false := by
  rcases abandoned with ⟨gone, kept, shape, rfl, ended⟩
  have whole := (shape.map RecoveryRecord.id).nodup_iff.mp distinct
  rw [List.map_append] at whole
  refine ⟨whole.of_append_left, ?_⟩
  intro id member
  rcases List.mem_map.mp member with ⟨record, chosen, rfl⟩
  have listed := shape.mem_iff.mpr (List.mem_append_left kept chosen)
  exact ⟨record, stored record listed, ended record chosen⟩

theorem removeFiles_abandoned (distinct : victims.Nodup)
    (present : ∀ id ∈ victims, ∃ record, items[id]? = some record ∧
      store.isSessionLive live record.sessionId = false) :
    ∃ after, removeFiles items victims = (.ok (), after) ∧
      ∀ (id : RecoveryId) record, items[id]? = some record →
        store.isSessionLive live record.sessionId = true → after[id]? = some record := by
  rcases removeFiles_ok victims items distinct
    (fun id member => (present id member).imp fun record held => held.1) with
    ⟨after, done, lookup⟩
  refine ⟨after, done, ?_⟩
  intro id record held lives
  rw [lookup id, if_neg, held]
  intro member
  rcases present id member with ⟨found, here, ended⟩
  cases held.symm.trans here
  rw [lives] at ended
  cases ended

theorem lives_of_ownedByAnother (owned : store.ownedByAnother live record = true) :
    store.isSessionLive live record.sessionId = true :=
  (Bool.and_eq_true_iff.mp owned).2

theorem pruneToPolicy_respects :
    (∀ error, (store.pruneToPolicy host live items now).1 = .error error →
      (store.pruneToPolicy host live items now).2 = items) ∧
    ∀ (id : RecoveryId) record, items[id]? = some record →
      store.isSessionLive live record.sessionId = true →
        (store.pruneToPolicy host live items now).2[id]? = some record := by
  rw [pruneToPolicy]
  split
  · exact ⟨fun _ _ => rfl, fun id record held _ => held⟩
  · rename_i victims planned
    rcases bind_eq_ok_iff.mp planned with ⟨records, read, chosen⟩
    rcases inspected_ok host store items records read with ⟨stored, distinct⟩
    rcases abandoned_present store live items records victims stored distinct
      (victimsOf_ok host store live _ _ now records victims chosen) with ⟨once, present⟩
    rcases removeFiles_abandoned store live items victims once present with ⟨after, done, kept⟩
    rw [done]
    exact ⟨by intros; contradiction, kept⟩

theorem stamp_ok (existing : Option RecoveryRecord) (record stamped : RecoveryRecord) (now : Nat)
    (accepted : store.stamp live existing record now = .ok stamped) :
    stamped.id = record.id ∧ stamped.sessionId = some store.sessionId ∧
      ∀ before, existing = some before → store.ownedByAnother live before = false := by
  cases existing with
  | none =>
    cases accepted
    exact ⟨rfl, rfl, by intros; contradiction⟩
  | some before =>
    simp only [stamp] at accepted
    by_cases owned : store.ownedByAnother live before = true
    · rw [if_pos owned] at accepted
      cases accepted
    · rw [if_neg owned] at accepted
      cases accepted
      refine ⟨rfl, rfl, ?_⟩
      intro found same
      cases same
      simpa using owned

theorem readExisting_ok (existing : Option RecoveryRecord)
    (read : readExisting host items id = .ok existing) :
    existing = items[id]? := by
  rw [readExisting] at read
  cases held : items[id]? with
  | none =>
    rw [held] at read
    cases read
    rfl
  | some record =>
    rw [held] at read
    simp only [readRecord] at read
    by_cases large : fileLen host record > hardMaxItemBytes
    · rw [if_pos large] at read
      cases read
    · rw [if_neg large] at read
      cases read
      rfl

/-- A planned `upsert` writes a record of its own, over one that is free, and evicts only records
of ended sessions. -/
theorem planUpsert_ok (record stored : RecoveryRecord) (victims : List RecoveryId) (now later : Nat)
    (planned : store.planUpsert host live items record now later = .ok (stored, victims)) :
    stored.id = record.id ∧ stored.sessionId = some store.sessionId ∧
      (∀ before, items[record.id]? = some before → store.ownedByAnother live before = false) ∧
      victims.Nodup ∧ (∀ id ∈ victims, id ≠ record.id ∧ ∃ evicted, items[id]? = some evicted ∧
        store.isSessionLive live evicted.sessionId = false) := by
  simp only [planUpsert, bind_eq_ok_iff, refuse_eq_ok_iff] at planned
  rcases planned with ⟨existing, read, stamped, accepted, bytes, _, _, valid, inspected,
    chosen, selected, _, done⟩
  cases done
  rcases stamp_ok store live existing record stored now accepted with ⟨sameId, owner, free⟩
  have found := readExisting_ok host items record.id existing read
  rcases inspected_ok host store items valid inspected with ⟨held, distinct⟩
  have others : ∀ other ∈ valid.filter (fun existing => existing.id ≠ stored.id),
      items[other.id]? = some other := by
    intro other member
    exact held other (List.mem_filter.mp member).1
  have othersDistinct : ((valid.filter fun existing => existing.id ≠ stored.id).map
      RecoveryRecord.id).Nodup := by
    exact distinct.sublist (List.filter_sublist.map _)
  have abandoned := victimsOf_ok host store live _ _ later _ victims selected
  rcases abandoned_present store live items _ victims others othersDistinct abandoned with
    ⟨once, present⟩
  refine ⟨sameId, owner, ?_, once, ?_⟩
  · intro before here
    exact free before (found.trans here)
  · intro id member
    refine ⟨?_, present id member⟩
    rcases abandoned with ⟨gone, kept, shape, same, _⟩
    rw [same] at member
    rcases List.mem_map.mp member with ⟨other, chosen, rfl⟩
    have listed := shape.mem_iff.mpr (List.mem_append_left kept chosen)
    rw [← sameId]
    simpa using (List.mem_filter.mp listed).2

theorem upsert_removes (record stored : RecoveryRecord) (victims : List RecoveryId)
    (now later : Nat)
    (planned : store.planUpsert host live items record now later = .ok (stored, victims)) :
    ∃ after, removeFiles (items.insert stored.id stored) (victims.filter (· ≠ stored.id)) =
        (.ok (), after) ∧
      ∀ (id : RecoveryId) kept, (items.insert stored.id stored)[id]? = some kept →
        store.isSessionLive live kept.sessionId = true → after[id]? = some kept := by
  rcases planUpsert_ok host store live items record stored victims now later planned with
    ⟨_, _, _, once, present⟩
  apply removeFiles_abandoned store live _ _ (once.filter _)
  intro id member
  rcases List.mem_filter.mp member with ⟨chosen, differs⟩
  have other : stored.id ≠ id := Ne.symm (of_decide_eq_true differs)
  rcases (present id chosen).2 with ⟨evicted, held, ended⟩
  refine ⟨evicted, ?_, ended⟩
  rw [Std.ExtTreeMap.getElem?_insert, if_neg (by simpa using other), held]

theorem upsert_respects (now later : Nat) :
    Respects store live items (store.upsert host live items record now later) := by
  rw [upsert]
  cases planned : store.planUpsert host live items record now later with
  | error error => exact ⟨fun _ _ held _ => held, fun _ _ => rfl, rfl⟩
  | ok plan =>
    rcases plan with ⟨stored, victims⟩
    rcases planUpsert_ok host store live items record stored victims now later planned with
      ⟨sameId, _, free, _, _⟩
    rcases upsert_removes host store live items record stored victims now later planned with
      ⟨after, done, kept⟩
    simp only [done]
    refine ⟨?_, by intros; contradiction, rfl⟩
    intro id before held owned
    have differs : stored.id ≠ id := by
      intro same
      rw [← same, sameId] at held
      rw [free before held] at owned
      cases owned
    apply kept id before _ (lives_of_ownedByAnother store live before owned)
    rw [Std.ExtTreeMap.getElem?_insert, if_neg (by simpa using differs), held]

theorem remove_respects : Respects store live items (store.remove host live items id) := by
  rw [remove]
  cases read : readExisting host items id with
  | error error => exact ⟨fun _ _ held _ => held, fun _ _ => rfl, rfl⟩
  | ok existing =>
    have found := readExisting_ok host items id existing read
    cases existing with
    | none => exact ⟨fun _ _ held _ => held, by intros; contradiction, rfl⟩
    | some existing =>
      simp only
      by_cases owned : store.ownedByAnother live existing = true
      · rw [if_pos owned]
        exact ⟨fun _ _ held _ => held, fun _ _ => rfl, rfl⟩
      · rw [if_neg owned, removeFile, ← found]
        refine ⟨?_, by intros; contradiction, rfl⟩
        intro other before held foreign
        have differs : id ≠ other := by
          intro same
          rw [same, held] at found
          cases found
          exact owned foreign
        show (items.erase id)[other]? = some before
        rw [Std.ExtTreeMap.getElem?_erase, if_neg (by simpa using differs), held]

theorem claim_cases :
    (store.claim host live items id now).store = store ∧
      (((store.claim host live items id now).items = items ∧
          ∀ claimed, (store.claim host live items id now).answer ≠ .ok (some claimed)) ∨
        ∃ before claimed, items[id]? = some before ∧
          store.ownedByAnother live before = false ∧
          claimed.sessionId = some store.sessionId ∧
          (store.claim host live items id now).answer = .ok (some claimed) ∧
          (store.claim host live items id now).items = items.insert id claimed) := by
  rw [claim]
  cases read : readExisting host items id with
  | error error => exact ⟨rfl, Or.inl ⟨rfl, by intro _ held; cases held⟩⟩
  | ok existing =>
    have found := readExisting_ok host items id existing read
    cases existing with
    | none => exact ⟨rfl, Or.inl ⟨rfl, by intro _ held; cases held⟩⟩
    | some existing =>
      simp only
      by_cases mismatched : existing.id ≠ id
      · rw [if_pos mismatched]
        exact ⟨rfl, Or.inl ⟨rfl, by intro _ held; cases held⟩⟩
      · rw [if_neg mismatched]
        by_cases owned : store.ownedByAnother live existing = true
        · rw [if_pos owned]
          exact ⟨rfl, Or.inl ⟨rfl, by intro _ held; cases held⟩⟩
        · rw [if_neg owned]
          cases encodeRecord host { existing with
              sessionId := some store.sessionId, updatedAtMs := now } with
          | error error => exact ⟨rfl, Or.inl ⟨rfl, by intro _ held; cases held⟩⟩
          | ok bytes =>
            exact ⟨rfl, Or.inr ⟨existing, _, found.symm, by simpa using owned, rfl, rfl,
              rfl⟩⟩

theorem claim_respects :
    Respects store live items (store.claim host live items id now) := by
  rcases claim_cases host store live items id now with
    ⟨sameStore, ⟨sameItems, _⟩ | ⟨before, claimed, held, free, _, answered, done⟩⟩
  · exact ⟨fun _ _ held _ => by rw [sameItems, held], fun _ _ => sameItems, by rw [sameStore]⟩
  · refine ⟨?_, ?_, by rw [sameStore]⟩
    · intro other record here foreign
      have differs : id ≠ other := by
        intro same
        rw [← same, held] at here
        cases here
        rw [free] at foreign
        cases foreign
      rw [done, Std.ExtTreeMap.getElem?_insert, if_neg (by simpa using differs), here]
    · intro error failed
      rw [answered] at failed
      cases failed

theorem setRetention_respects (retention : RecoveryRetention) (now : Nat) :
    Respects store live items (store.setRetention host live items retention now) := by
  rw [setRetention]
  cases validateRetention retention with
  | error error => exact ⟨fun _ _ held _ => held, fun _ _ => rfl, rfl⟩
  | ok =>
    simp only
    have pruned := pruneToPolicy_respects host { store with retention } live items now
    rcases answer : { store with retention }.pruneToPolicy host live items now with
      ⟨result, after⟩
    rw [answer] at pruned
    have foreign : ∀ (id : RecoveryId) record, items[id]? = some record →
        store.ownedByAnother live record = true → after[id]? = some record :=
      fun id record held owned =>
        pruned.2 id record held (lives_of_ownedByAnother store live record owned)
    simp only [answer]
    cases result with
    | error error => exact ⟨foreign, fun _ _ => pruned.1 error rfl, rfl⟩
    | ok => exact ⟨foreign, by intros; contradiction, rfl⟩

theorem isSessionLive_own (own : record.sessionId = some store.sessionId) :
    store.isSessionLive live record.sessionId = true := by
  rw [own]
  simp only [isSessionLive, BEq.rfl, Bool.true_or]

def KeepsOwn (store : RecoveryStore) (items after : RecoveryItems) (id : RecoveryId) : Prop :=
  ∀ record, items[id]? = some record → record.sessionId = some store.sessionId →
    ∃ kept, after[id]? = some kept ∧ kept.sessionId = some store.sessionId

theorem keepsOwn_insert (stored id : RecoveryId) (own : record.sessionId = some store.sessionId) :
    KeepsOwn store items (items.insert stored record) id := by
  intro before held owned
  by_cases same : stored = id
  · subst same
    exact ⟨record, Std.ExtTreeMap.getElem?_insert_self, own⟩
  · exact ⟨before, by rw [Std.ExtTreeMap.getElem?_insert, if_neg (by simpa using same), held],
      owned⟩

theorem upsert_keepsOwn (now later : Nat) (id : RecoveryId) :
    KeepsOwn store items (store.upsert host live items record now later).items id := by
  intro before held owned
  rw [upsert]
  cases planned : store.planUpsert host live items record now later with
  | error error => exact ⟨before, held, owned⟩
  | ok plan =>
    rcases plan with ⟨stored, victims⟩
    rcases upsert_removes host store live items record stored victims now later planned with
      ⟨after, done, kept⟩
    simp only [done]
    have owner := (planUpsert_ok host store live items record stored victims now later
      planned).2.1
    rcases keepsOwn_insert store items stored stored.id id owner before held owned with
      ⟨remaining, here, own⟩
    exact ⟨remaining, kept id remaining here (isSessionLive_own store live remaining own), own⟩

theorem remove_keepsOwn (removed id : RecoveryId) (differs : removed ≠ id) :
    KeepsOwn store items (store.remove host live items removed).items id := by
  intro before held owned
  refine ⟨before, ?_, owned⟩
  rw [remove]
  cases readExisting host items removed with
  | error error => exact held
  | ok existing =>
    cases existing with
    | none => exact held
    | some existing =>
      simp only
      by_cases foreign : store.ownedByAnother live existing = true
      · rw [if_pos foreign]
        exact held
      · rw [if_neg foreign, removeFile]
        cases items[removed]? with
        | none => exact held
        | some found =>
          show (items.erase removed)[id]? = some before
          rw [Std.ExtTreeMap.getElem?_erase, if_neg (by simpa using differs), held]

theorem claim_keepsOwn (claimed id : RecoveryId) (now : Nat) :
    KeepsOwn store items (store.claim host live items claimed now).items id := by
  intro before held owned
  rcases claim_cases host store live items claimed now with
    ⟨_, ⟨sameItems, _⟩ | ⟨_, record, _, _, owner, _, done⟩⟩
  · rw [sameItems]
    exact ⟨before, held, owned⟩
  · rw [done]
    exact keepsOwn_insert store items record claimed id owner before held owned

theorem setRetention_keepsOwn (retention : RecoveryRetention) (now : Nat) (id : RecoveryId) :
    KeepsOwn store items (store.setRetention host live items retention now).items id := by
  intro before held owned
  refine ⟨before, ?_, owned⟩
  rw [setRetention]
  cases validateRetention retention with
  | error error => exact held
  | ok =>
    have pruned := (pruneToPolicy_respects host { store with retention } live items now).2 id
      before held (isSessionLive_own store live before owned)
    simp only
    rcases answer : { store with retention }.pruneToPolicy host live items now with
      ⟨result, after⟩
    rw [answer] at pruned
    simp only [answer]
    cases result with
    | error error => exact pruned
    | ok => exact pruned

end RecoveryStore

open RecoveryDirectory

def RecoveryAction.actor : RecoveryAction → Option Uuid
  | .open _ _ _ => none
  | .close session => some session
  | .crash session => some session
  | .upsert session _ _ _ => some session
  | .remove session _ => some session
  | .claim session _ _ => some session
  | .setRetention session _ _ => some session

def RecoveryAction.releases (session : Uuid) (id : RecoveryId) : RecoveryAction → Prop
  | .close closed => closed = session
  | .crash crashed => crashed = session
  | .remove remover removed => remover = session ∧ removed = id
  | _ => False

structure SafeStep (host : RecoveryHost) (directory : RecoveryDirectory)
    (action : RecoveryAction) : Prop where
  protects : ∀ (id : RecoveryId) record owner, directory.items[id]? = some record →
    record.sessionId = some owner → directory.isLive owner = true →
      action.actor ≠ some owner → (directory.perform host action).2.items[id]? = some record
  refused : ∀ error, (directory.perform host action).1 = .error error →
    (directory.perform host action).2.items = directory.items
  transfers : ∀ session id now record, action = .claim session id now →
    (directory.perform host action).1 = .ok (.claimed (some record)) →
      (∃ before, directory.items[id]? = some before ∧
        ∀ owner, before.sessionId = some owner → owner = session ∨ directory.isLive owner = false) ∧
      (directory.perform host action).2.items[id]? = some record ∧
      record.sessionId = some session ∧ directory.isLive session = true

/-- Once a session has claimed a record, no other is handed it while that session is open and has
not removed it. -/
def ClaimedOnce (host : RecoveryHost) (directory : RecoveryDirectory)
    (actions : List RecoveryAction) : Prop :=
  ∀ front middle rest session other id now later record,
    actions = front ++ .claim session id now :: (middle ++ .claim other id later :: rest) →
    ((front.foldl (fun state action => (state.perform host action).2) directory).perform host
      (.claim session id now)).1 = .ok (.claimed (some record)) →
    (∀ action ∈ middle, ¬ action.releases session id) → other ≠ session →
    ∀ taken, ((((front ++ .claim session id now :: middle).foldl
      (fun state action => (state.perform host action).2) directory)).perform host
        (.claim other id later)).1 ≠ .ok (.claimed (some taken))

theorem ownedByAnother_of_live (record : RecoveryRecord) (owner : Uuid)
    (owned : record.sessionId = some owner) (lives : directory.isLive owner = true)
    (differs : store.sessionId ≠ owner) :
    store.ownedByAnother directory.isLive record = true := by
  rw [RecoveryStore.ownedByAnother, owned]
  simp only [RecoveryStore.isSessionLive, lives, Bool.or_true, Bool.and_true, decide_eq_true_eq, ne_eq, Option.some.injEq]
  exact Ne.symm differs

theorem store?_session (store : RecoveryStore) (found : directory.store? session = some store) :
    store.sessionId = session ∧ directory.isLive session = true := by
  rw [RecoveryDirectory.store?] at found
  rcases Option.map_eq_some_iff.mp found with ⟨handle, held, rfl⟩
  refine ⟨rfl, ?_⟩
  rw [isLive, held]
  rfl

theorem settle_safe (directory : RecoveryDirectory) (store : RecoveryStore)
    (answer : α → RecoveryAnswer) (outcome : RecoveryStore.Outcome α)
    (respects : store.Respects directory.isLive directory.items outcome) :
    (∀ (id : RecoveryId) record owner, directory.items[id]? = some record →
      record.sessionId = some owner → directory.isLive owner = true →
        store.sessionId ≠ owner →
          (directory.settle answer outcome).2.items[id]? = some record) ∧
    ∀ error, (directory.settle answer outcome).1 = .error error →
      (directory.settle answer outcome).2.items = directory.items := by
  constructor
  · intro id record owner held owned lives differs
    exact respects.foreign id record held
      (ownedByAnother_of_live directory store record owner owned lives differs)
  · intro error failed
    cases answered : outcome.answer with
    | ok value =>
      rw [RecoveryDirectory.settle, answered] at failed
      cases failed
    | error problem => exact respects.refused problem answered

theorem start_items (now : Nat) :
    (start host directory store now).items =
      (store.pruneToPolicy host (directory.withStore store directory.items).isLive
        directory.items now).2 := by
  rw [start]
  rcases store.pruneToPolicy host (directory.withStore store directory.items).isLive
    directory.items now with ⟨result, items⟩
  cases result with
  | ok => rfl
  | error error =>
    simp only
    split <;> rfl

theorem isLive_withStore (items : RecoveryItems) (session : Uuid) :
    (directory.withStore store items).isLive session =
      (session == store.sessionId || directory.isLive session) := by
  rw [isLive, isLive, withStore]
  simp only [Std.ExtTreeMap.getElem?_insert, Std.LawfulEqOrd.compare_eq_iff_eq]
  by_cases same : store.sessionId = session
  · rw [if_pos same, same]
    simp
  · rw [if_neg same]
    simp [Ne.symm same]

def StepRespects (directory : RecoveryDirectory) (action : RecoveryAction)
    (outcome : Except RecoveryError RecoveryAnswer × RecoveryDirectory) : Prop :=
  (∀ (id : RecoveryId) record owner, directory.items[id]? = some record →
    record.sessionId = some owner → directory.isLive owner = true →
      action.actor ≠ some owner → outcome.2.items[id]? = some record) ∧
  ∀ error, outcome.1 = .error error → outcome.2.items = directory.items

theorem stepRespects_unchanged (directory after : RecoveryDirectory) (action : RecoveryAction)
    (answer : Except RecoveryError RecoveryAnswer) (same : after.items = directory.items) :
    StepRespects directory action (answer, after) :=
  ⟨fun _ _ _ held _ _ _ => by rw [same, held], fun _ _ => same⟩

theorem stepRespects_settle (directory : RecoveryDirectory) (action : RecoveryAction)
    (session : Uuid) (store : RecoveryStore) (answer : α → RecoveryAnswer)
    (outcome : RecoveryStore.Outcome α) (acts : action.actor = some session)
    (opened : directory.store? session = some store)
    (respects : store.Respects directory.isLive directory.items outcome) :
    StepRespects directory action (directory.settle answer outcome) := by
  rcases settle_safe directory store answer outcome respects with ⟨protects, refused⟩
  have same := (store?_session directory session store opened).1
  refine ⟨?_, refused⟩
  intro id record owner held owned lives differs
  apply protects id record owner held owned lives
  intro own
  exact differs (by rw [acts, ← same, own])

theorem open_respects (draws : List Uuid) (retention : RecoveryRetention) (now : Nat) :
    StepRespects directory (.open draws retention now)
      (directory.perform host (.open draws retention now)) := by
  rw [RecoveryDirectory.perform, RecoveryDirectory.open]
  cases validateRetention retention with
  | error error => exact stepRespects_unchanged directory _ _ _ rfl
  | ok =>
    simp only
    by_cases crowded : directory.handles.size + directory.staleMarkers.length > maxScanEntries
    · rw [if_pos crowded]
      exact stepRespects_unchanged directory _ _ _ rfl
    · rw [if_neg crowded]
      cases draws.find? fun session => !directory.isLive session with
      | none => exact stepRespects_unchanged directory _ _ _ rfl
      | some session =>
        refine ⟨?_, by intros; contradiction⟩
        intro id record owner held owned lives _
        simp only [start_items]
        apply (RecoveryStore.pruneToPolicy_respects host _ _ _ now).2 id record held
        rw [owned]
        simp only [RecoveryStore.isSessionLive, isLive_withStore]
        have before : RecoveryDirectory.isLive
            { directory with staleMarkers := [] } owner = true := lives
        rw [before, Bool.or_true, Bool.or_true]

theorem handled_respects
    (run : RecoveryStore → Except RecoveryError RecoveryAnswer × RecoveryDirectory)
    (respects : ∀ store, directory.store? session = some store →
      StepRespects directory action (run store)) :
    StepRespects directory action (directory.handled session run) := by
  rw [handled]
  cases opened : directory.store? session with
  | none => exact stepRespects_unchanged directory _ _ _ rfl
  | some store => exact respects store opened

theorem perform_respects :
    StepRespects directory action (directory.perform host action) := by
  cases action with
  | «open» draws retention now => exact open_respects host directory draws retention now
  | close session => exact stepRespects_unchanged directory _ _ _ rfl
  | crash session =>
    apply handled_respects
    intro store opened
    exact stepRespects_unchanged directory _ _ _ rfl
  | upsert session record now later =>
    apply handled_respects
    intro store opened
    exact stepRespects_settle directory _ session store _ _ rfl opened
      (store.upsert_respects host _ _ record now later)
  | remove session id =>
    apply handled_respects
    intro store opened
    exact stepRespects_settle directory _ session store _ _ rfl opened
      (store.remove_respects host _ _ id)
  | claim session id now =>
    apply handled_respects
    intro store opened
    exact stepRespects_settle directory _ session store _ _ rfl opened
      (store.claim_respects host _ _ id now)
  | setRetention session retention now =>
    apply handled_respects
    intro store opened
    exact stepRespects_settle directory _ session store _ _ rfl opened
      (store.setRetention_respects host _ _ retention now)

theorem claim_transfers (id : RecoveryId) (now : Nat) (record : RecoveryRecord)
    (answered : (directory.perform host (.claim session id now)).1 = .ok (.claimed (some record))) :
    (∃ before, directory.items[id]? = some before ∧
      ∀ owner, before.sessionId = some owner → owner = session ∨ directory.isLive owner = false) ∧
    (directory.perform host (.claim session id now)).2.items[id]? = some record ∧
    record.sessionId = some session ∧ directory.isLive session = true := by
  rw [RecoveryDirectory.perform, handled] at answered ⊢
  cases opened : directory.store? session with
  | none =>
    rw [opened] at answered
    cases answered
  | some store =>
    rw [opened] at answered
    simp only [RecoveryDirectory.settle] at answered ⊢
    rcases store?_session directory session store opened with ⟨same, lives⟩
    rcases store.claim_cases host directory.isLive directory.items id now with
      ⟨_, ⟨_, never⟩ | ⟨before, claimed, held, free, owner, gave, done⟩⟩
    · cases result : (store.claim host directory.isLive directory.items id now).answer with
      | error error =>
        rw [result] at answered
        cases answered
      | ok value =>
        rw [result] at answered
        cases answered
        exact absurd result (never record)
    · rw [gave] at answered
      cases answered
      refine ⟨⟨before, held, ?_⟩, ?_, owner.trans (congrArg some same), lives⟩
      · intro holder owned
        by_cases own : holder = session
        · exact Or.inl own
        · refine Or.inr ?_
          by_cases present : directory.isLive holder = true
          · have taken := ownedByAnother_of_live directory store before holder owned present
              (by rw [same]; exact Ne.symm own)
            rw [free] at taken
            cases taken
          · simpa using present
      · show (store.claim host directory.isLive directory.items id now).items[id]? = _
        rw [done, Std.ExtTreeMap.getElem?_insert_self]

theorem safeStep :
    SafeStep host directory action where
  protects := (perform_respects host directory action).1
  refused := (perform_respects host directory action).2
  transfers := by
    intro session id now record same answered
    subst same
    exact claim_transfers host directory session id now record answered

def Holds (session : Uuid) (id : RecoveryId) (directory : RecoveryDirectory) : Prop :=
  directory.isLive session = true ∧
    ∃ record, directory.items[id]? = some record ∧ record.sessionId = some session

theorem isLive_erase (ended session : Uuid) (stale : List Uuid)
    (lives : directory.isLive session = true) (differs : ended ≠ session) :
    RecoveryDirectory.isLive { directory with
      handles := directory.handles.erase ended, staleMarkers := stale } session = true := by
  rw [isLive] at lives ⊢
  rwa [Std.ExtTreeMap.getElem?_erase, if_neg (by simpa using differs)]

theorem isLive_settle (directory : RecoveryDirectory) (answer : α → RecoveryAnswer)
    (outcome : RecoveryStore.Outcome α) (session : Uuid) (lives : directory.isLive session = true) :
    (directory.settle answer outcome).2.isLive session = true := by
  rw [RecoveryDirectory.settle, isLive_withStore, lives, Bool.or_true]

theorem isLive_start (now : Nat) (session : Uuid) (lives : directory.isLive session = true) :
    (start host directory store now).isLive session = true := by
  rw [start]
  rcases store.pruneToPolicy host (directory.withStore store directory.items).isLive
    directory.items now with ⟨result, items⟩
  cases result with
  | ok => simp only [isLive_withStore, lives, Bool.or_true]
  | error error =>
    simp only
    split
    · rw [isLive_withStore, lives, Bool.or_true]
    · rw [isLive_withStore, lives, Bool.or_true]

theorem isLive_perform (id : RecoveryId) (lives : directory.isLive session = true)
    (kept : ¬ action.releases session id) :
    (directory.perform host action).2.isLive session = true := by
  have handledLive : ∀ (acting : Uuid)
      (run : RecoveryStore → Except RecoveryError RecoveryAnswer × RecoveryDirectory),
      (∀ store, (run store).2.isLive session = true) →
        (directory.handled acting run).2.isLive session = true := by
    intro acting run each
    rw [handled]
    cases directory.store? acting with
    | none => exact lives
    | some store => exact each store
  cases action with
  | «open» draws retention now =>
    rw [RecoveryDirectory.perform, RecoveryDirectory.open]
    cases validateRetention retention with
    | error error => exact lives
    | ok =>
      simp only
      by_cases crowded :
          directory.handles.size + directory.staleMarkers.length > maxScanEntries
      · rw [if_pos crowded]
        exact lives
      · rw [if_neg crowded]
        cases draws.find? fun session => !directory.isLive session with
        | none => exact lives
        | some opened =>
          exact isLive_start host { directory with staleMarkers := [] } _ now session lives
  | close ended => exact isLive_erase directory ended session _ lives kept
  | crash ended =>
    apply handledLive
    intro store
    exact isLive_erase directory ended session _ lives kept
  | upsert acting record now later =>
    exact handledLive acting _ fun store => isLive_settle directory _ _ session lives
  | remove acting removed =>
    exact handledLive acting _ fun store => isLive_settle directory _ _ session lives
  | claim acting claimed now =>
    exact handledLive acting _ fun store => isLive_settle directory _ _ session lives
  | setRetention acting retention now =>
    exact handledLive acting _ fun store => isLive_settle directory _ _ session lives

theorem items_handled (acting session : Uuid) (id : RecoveryId) {α : Type}
    (answer : α → RecoveryAnswer) (run : RecoveryStore → RecoveryStore.Outcome α)
    (same : acting = session) (holds : Holds session id directory)
    (keeps : ∀ store, RecoveryStore.KeepsOwn store directory.items (run store).items id) :
    ∃ record, (directory.handled acting fun store =>
        directory.settle answer (run store)).2.items[id]? = some record ∧
      record.sessionId = some session := by
  rcases holds with ⟨_, record, held, owned⟩
  rw [handled]
  cases opened : directory.store? acting with
  | none => exact ⟨record, held, owned⟩
  | some store =>
    have own := (store?_session directory acting store opened).1.trans same
    rw [← own] at owned ⊢
    exact keeps store record held owned

theorem holds_perform (id : RecoveryId) (holds : Holds session id directory)
    (kept : ¬ action.releases session id) :
    Holds session id (directory.perform host action).2 := by
  refine ⟨isLive_perform host directory action session id holds.1 kept, ?_⟩
  rcases holds with ⟨lives, record, held, owned⟩
  have holds : Holds session id directory := ⟨lives, record, held, owned⟩
  by_cases acts : action.actor = some session
  · cases action with
    | «open» draws retention now => cases acts
    | close ended => exact absurd (Option.some.inj acts) kept
    | crash ended => exact absurd (Option.some.inj acts) kept
    | upsert acting stored now later =>
      exact items_handled directory acting session id _ _ (Option.some.inj acts) holds
        fun store => store.upsert_keepsOwn host _ _ stored now later id
    | remove acting removed =>
      have differs : removed ≠ id := fun same => kept ⟨Option.some.inj acts, same⟩
      exact items_handled directory acting session id _ _ (Option.some.inj acts) holds
        fun store => store.remove_keepsOwn host _ _ removed id differs
    | claim acting claimed now =>
      exact items_handled directory acting session id _ _ (Option.some.inj acts) holds
        fun store => store.claim_keepsOwn host _ _ claimed id now
    | setRetention acting retention now =>
      exact items_handled directory acting session id _ _ (Option.some.inj acts) holds
        fun store => store.setRetention_keepsOwn host _ _ retention now id
  · exact ⟨record, (safeStep host directory action).protects id record session held owned lives
      acts, owned⟩

theorem holds_run (id : RecoveryId) (actions : List RecoveryAction) (directory : RecoveryDirectory)
    (holds : Holds session id directory) (kept : ∀ action ∈ actions, ¬ action.releases session id) :
    Holds session id (actions.foldl (fun state action => (state.perform host action).2)
      directory) := by
  induction actions generalizing directory with
  | nil => exact holds
  | cons action rest ih =>
    exact ih (directory.perform host action).2
      (holds_perform host directory action session id holds (kept action List.mem_cons_self))
      fun later member => kept later (List.mem_cons_of_mem _ member)

theorem claimedOnce (actions : List RecoveryAction) :
    ClaimedOnce host directory actions := by
  intro front middle rest session other id now later record _ answered kept differs taken
  rw [List.foldl_append, List.foldl_cons]
  rcases claim_transfers host _ session id now record answered with ⟨_, held, owned, lives⟩
  have claimed : Holds session id ((front.foldl
      (fun state action => (state.perform host action).2) directory).perform host
        (.claim session id now)).2 :=
    ⟨isLive_perform host _ _ session id lives nofun, record, held, owned⟩
  rcases holds_run host session id middle _ claimed kept with
    ⟨stillLives, current, here, stillOwned⟩
  intro again
  rcases (claim_transfers host _ other id later taken again).1 with ⟨before, found, free⟩
  cases here.symm.trans found
  rcases free session stillOwned with same | ended
  · exact differs same.symm
  · rw [stillLives] at ended
    cases ended

/-- Whatever windows do to the directory, in whatever order, from whatever it holds. -/
theorem recovery_records_are_safe (host : RecoveryHost) (directory : RecoveryDirectory)
    (actions : List RecoveryAction) :
    Run.Along (fun state action => (RecoveryDirectory.perform host state action).2)
        (SafeStep host) directory actions ∧
      ClaimedOnce host directory actions :=
  ⟨Run.along_always (safeStep host) actions directory, claimedOnce host directory actions⟩

end KnotEditor.Desktop
