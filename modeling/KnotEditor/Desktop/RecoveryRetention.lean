import KnotEditor.Desktop.RecoverySafety

/-! Retention: a store that takes a new record keeps within its limits, gives up only records of
sessions that ended, and of those the oldest. -/

namespace KnotEditor.Desktop

open Fallible

namespace RecoveryStore

variable (host : RecoveryHost) (store : RecoveryStore) (live : Uuid → Bool)

/-- The eviction loop of `upsert` and `prune_to_policy`, cut off after so many turns. -/
def evictWithin (exceeds : Nat → Nat → Bool) (detail : String) :
    Nat → List RecoveryRecord → Nat → List RecoveryId →
      Option (Except RecoveryError (List RecoveryId))
  | 0, _, _, _ => none
  | turns + 1, kept, size, victims =>
    if exceeds kept.length size then
      match kept.findIdx? fun item => !store.isSessionLive live item.sessionId with
      | none => some (.error (.capacity detail))
      | some index =>
        match kept[index]? with
        | none => none
        | some old =>
          evictWithin exceeds detail turns (kept.eraseIdx index)
            (size - retainedLen host old) (victims ++ [old.id])
    else
      some (.ok victims)

def totalBytes (items : RecoveryItems) : Nat :=
  (items.toList.map fun entry => retainedLen host entry.2).sum

/-- The record as `upsert` stores it: this session's, with new times. -/
def StoredAs (record stored : RecoveryRecord) (now : Nat) : Prop :=
  stored = { record with
    sessionId := some store.sessionId
    updatedAtMs := now
    createdAtMs := stored.createdAtMs }

/-- The directory took `stored` and gave up others for it, within the limits. -/
structure RetainedWithin (items : RecoveryItems) (later : Nat) (stored : RecoveryRecord)
    (after : RecoveryItems) : Prop where
  holds : after[stored.id]? = some stored
  counted : after.size ≤ store.retention.maxRecords
  sized : totalBytes host after ≤ store.retention.maxTotalBytes
  others : ∀ (id : RecoveryId) old, id ≠ stored.id → items[id]? = some old →
    after[id]? = some old ∨
      after[id]? = none ∧ store.isSessionLive live old.sessionId = false
  nothingElse : ∀ (id : RecoveryId) kept, id ≠ stored.id → after[id]? = some kept →
    items[id]? = some kept
  oldestFirst : ∀ (gone kept : RecoveryId) evicted survivor, gone ≠ stored.id →
    kept ≠ stored.id → items[gone]? = some evicted → after[gone]? = none →
      store.isCurrent live later evicted = true → after[kept]? = some survivor →
        store.isSessionLive live survivor.sessionId = false →
          evicted.updatedAtMs ≤ survivor.updatedAtMs

theorem evictWithin_eq (exceeds : Nat → Nat → Bool) (detail : String)
    (kept : List RecoveryRecord) (size : Nat) (victims : List RecoveryId) :
    ∀ turns, kept.length < turns →
      store.evictWithin host live exceeds detail turns kept size victims =
        some (store.evict host live exceeds detail kept size victims) := by
  fun_induction evict host store live exceeds detail kept size victims with
  | case1 kept size victims exceeded stuck =>
    intro turns enough
    obtain ⟨left, rfl⟩ := Nat.exists_eq_add_of_lt enough
    simp [evictWithin, exceeded, stuck]
  | case2 kept size victims exceeded index found bound shorter ih =>
    intro turns enough
    cases turns with
    | zero => omega
    | succ turns =>
      rw [evictWithin, if_pos exceeded]
      simp only [found, List.getElem?_eq_getElem bound]
      exact ih turns (by omega)
  | case3 kept size victims fits =>
    intro turns enough
    obtain ⟨left, rfl⟩ := Nat.exists_eq_add_of_lt enough
    simp [evictWithin, fits]

theorem records_perm (after : RecoveryItems) (records : List RecoveryRecord)
    (once : (records.map RecoveryRecord.id).Nodup)
    (held : ∀ (id : RecoveryId) record, after[id]? = some record ↔
      record ∈ records ∧ record.id = id) :
    (after.toList.map Prod.snd).Perm records := by
  have entries : ∀ entry ∈ after.toList, entry.2 ∈ records ∧ entry.2.id = entry.1 := by
    rintro ⟨id, record⟩ member
    exact (held id record).mp (Std.ExtTreeMap.mem_toList_iff_getElem?_eq_some.mp member)
  have distinct := ids_nodup after fun entry member => (entries entry member).2
  rw [List.perm_ext_iff_of_nodup distinct.of_map once.of_map]
  intro record
  constructor
  · intro member
    obtain ⟨entry, listed, rfl⟩ := List.mem_map.mp member
    exact (entries entry listed).1
  · intro member
    refine List.mem_map.mpr ⟨(record.id, record), ?_, rfl⟩
    exact Std.ExtTreeMap.mem_toList_iff_getElem?_eq_some.mpr
      ((held record.id record).mpr ⟨member, rfl⟩)

variable {host} {store} {live} {items : RecoveryItems} {record : RecoveryRecord} {now later : Nat}

def exceedsWith (store : RecoveryStore) (bytes : Nat) (count size : Nat) : Bool :=
  count + 1 > store.retention.maxRecords || size + bytes > store.retention.maxTotalBytes

theorem upsert_ok (done : (store.upsert host live items record now later).answer = .ok ()) :
    ∃ stored valid gone kept, store.StoredAs record stored now ∧
      store.inspected host items = .ok valid ∧
      Decided host store live (store.exceedsWith (retainedLen host stored)) later
        (valid.filter fun existing => existing.id ≠ stored.id) gone kept ∧
      ∀ id : RecoveryId, (store.upsert host live items record now later).items[id]? =
        if id ∈ gone.map RecoveryRecord.id then none
        else if stored.id = id then some stored else items[id]? := by
  rw [upsert] at done ⊢
  cases planned : store.planUpsert host live items record now later with
  | error error =>
    rw [planned] at done
    cases done
  | ok plan =>
    obtain ⟨stored, victims⟩ := plan
    obtain ⟨_, _, _, once, present⟩ :=
      planUpsert_ok host store live items record stored victims now later planned
    simp only [planUpsert, bind_eq_ok_iff, refuse_eq_ok_iff] at planned
    obtain ⟨existing, _, stamped, accepted, bytes, encoded, _, valid, inspected, chosen, selected,
      _, same⟩ := planned
    cases same
    have sameId := (stamp_ok store live existing record stored now accepted).1
    have length : bytes = retainedLen host stored := by
      rw [encodeRecord, mapError_eq_ok_iff] at encoded
      rw [retainedLen, encoded]
      rfl
    obtain ⟨gone, kept, rfl, decided⟩ :=
      victimsOf_decided host store live _ _ later _ victims selected
    have unfiltered : (gone.map RecoveryRecord.id).filter (· ≠ stored.id) =
        gone.map RecoveryRecord.id := by
      rw [List.filter_eq_self]
      intro id member
      simpa [sameId] using (present id member).1
    obtain ⟨left, cleared, lookup⟩ := removeFiles_ok (gone.map RecoveryRecord.id)
      (items.insert stored.id stored) once (by
        intro id member
        obtain ⟨differs, evicted, held, _⟩ := present id member
        refine ⟨evicted, ?_⟩
        rw [Std.ExtTreeMap.getElem?_insert, if_neg (by simpa [sameId] using Ne.symm differs), held])
    subst length
    refine ⟨stored, valid, gone, kept, ?_, inspected, decided, ?_⟩
    · cases existing with
      | none =>
        cases accepted
        rfl
      | some before =>
        simp only [stamp] at accepted
        split at accepted
        · cases accepted
        · cases accepted
          rfl
    · intro id
      simp only [unfiltered, cleared]
      rw [lookup id, Std.ExtTreeMap.getElem?_insert]
      simp

theorem retainedWithin_of_decided {stored : RecoveryRecord} {after : RecoveryItems}
    {valid gone kept : List RecoveryRecord} (inspected : store.inspected host items = .ok valid)
    (decided : Decided host store live (store.exceedsWith (retainedLen host stored)) later
      (valid.filter fun existing => existing.id ≠ stored.id) gone kept)
    (lookup : ∀ id : RecoveryId, after[id]? =
      if id ∈ gone.map RecoveryRecord.id then none
      else if stored.id = id then some stored else items[id]?) :
    RetainedWithin host store live items later stored after := by
  obtain ⟨listed, named⟩ := inspected_perm host store items valid inspected
  obtain ⟨held, distinct⟩ := inspected_ok host store items valid inspected
  have known : ∀ (id : RecoveryId) old, items[id]? = some old → old ∈ valid ∧ old.id = id := by
    intro id old here
    have entry := Std.ExtTreeMap.mem_toList_iff_getElem?_eq_some.mpr here
    exact ⟨listed.mem_iff.mpr (List.mem_map.mpr ⟨_, entry, rfl⟩), named _ entry⟩
  have others : ∀ {other}, other ∈ gone ++ kept ↔ other ∈ valid ∧ other.id ≠ stored.id := by
    intro other
    rw [← decided.parted.mem_iff]
    simp
  have once : ((gone ++ kept).map RecoveryRecord.id).Nodup :=
    ((decided.parted.map RecoveryRecord.id).nodup_iff).mp
      (distinct.sublist (List.filter_sublist.map _))
  have apart : ∀ survivor ∈ kept, survivor.id ∉ gone.map RecoveryRecord.id := by
    intro survivor stays left
    rw [List.map_append, List.nodup_append] at once
    exact once.2.2 _ left _ (List.mem_map_of_mem stays) rfl
  have kept_stored : stored.id ∉ gone.map RecoveryRecord.id := by
    intro left
    obtain ⟨other, member, same⟩ := List.mem_map.mp left
    exact (others.mp (List.mem_append_left kept member)).2 same
  have survives : ∀ (id : RecoveryId) survivor, id ≠ stored.id → after[id]? = some survivor →
      survivor ∈ kept ∧ survivor.id = id ∧ items[id]? = some survivor := by
    intro id survivor differs here
    rw [lookup id] at here
    split at here
    · cases here
    · rename_i stays
      rw [if_neg (Ne.symm differs)] at here
      obtain ⟨member, same⟩ := known id survivor here
      rcases List.mem_append.mp (others.mpr ⟨member, by rwa [same]⟩) with left | stayed
      · exact absurd (List.mem_map.mpr ⟨survivor, left, same⟩) stays
      · exact ⟨stayed, same, here⟩
  have whole : (after.toList.map Prod.snd).Perm (stored :: kept) := by
    apply records_perm
    · rw [List.map_cons, List.nodup_cons]
      rw [List.map_append, List.nodup_append] at once
      refine ⟨?_, once.2.1⟩
      intro member
      obtain ⟨other, stays, same⟩ := List.mem_map.mp member
      exact (others.mp (List.mem_append_right gone stays)).2 same
    · intro id other
      by_cases same : id = stored.id
      · subst same
        rw [lookup, if_neg kept_stored, if_pos rfl]
        constructor
        · rintro here
          cases here
          exact ⟨List.mem_cons_self, rfl⟩
        · rintro ⟨member, sameId⟩
          rcases List.mem_cons.mp member with rfl | stays
          · rfl
          · exact absurd sameId (others.mp (List.mem_append_right gone stays)).2
      · constructor
        · intro here
          obtain ⟨stays, sameId, _⟩ := survives id other same here
          exact ⟨List.mem_cons_of_mem _ stays, sameId⟩
        · rintro ⟨member, rfl⟩
          rcases List.mem_cons.mp member with rfl | stays
          · exact absurd rfl same
          · rw [lookup, if_neg (apart other stays), if_neg (Ne.symm same)]
            exact held other (others.mp (List.mem_append_right gone stays)).1
  have fits := decided.fits
  rw [exceedsWith, Bool.or_eq_false_iff, decide_eq_false_iff_not, decide_eq_false_iff_not] at fits
  constructor
  · rw [lookup, if_neg kept_stored, if_pos rfl]
  · have count := whole.length_eq
    rw [List.length_map, Std.ExtTreeMap.length_toList, List.length_cons] at count
    omega
  · have total := (whole.map (retainedLen host)).sum_nat
    rw [List.map_map, List.map_cons, List.sum_cons] at total
    have bytes : totalBytes host after = (after.toList.map (retainedLen host ∘ Prod.snd)).sum := rfl
    omega
  · intro id old differs here
    obtain ⟨member, same⟩ := known id old here
    rw [lookup id, if_neg (Ne.symm differs)]
    by_cases left : id ∈ gone.map RecoveryRecord.id
    · rw [if_pos left]
      obtain ⟨other, taken, sameId⟩ := List.mem_map.mp left
      have there := held other (others.mp (List.mem_append_left kept taken)).1
      rw [sameId, here] at there
      cases there
      exact .inr ⟨rfl, decided.ended old taken⟩
    · rw [if_neg left]
      exact .inl here
  · intro id survivor differs here
    exact (survives id survivor differs here).2.2
  · intro goneId keptId evicted survivor differs stays here absent unexpired found ended
    rw [lookup goneId, if_neg (Ne.symm differs), here] at absent
    split at absent
    · rename_i left
      obtain ⟨other, taken, sameId⟩ := List.mem_map.mp left
      have there := held other (others.mp (List.mem_append_left kept taken)).1
      rw [sameId, here] at there
      cases there
      exact decided.oldestFirst evicted taken unexpired survivor
        (survives keptId survivor stays found).1 ended
    · cases absent

/-- Whatever the directory holds, whoever is live and whatever the policy. -/
theorem recovery_retention (host : RecoveryHost) (store : RecoveryStore) (live : Uuid → Bool)
    (items : RecoveryItems) (record : RecoveryRecord) (now later : Nat) :
    let outcome := store.upsert host live items record now later
    (∀ exceeds detail kept size victims,
      store.evictWithin host live exceeds detail (kept.length + 1) kept size victims =
        some (store.evict host live exceeds detail kept size victims)) ∧
    (outcome.answer = .ok () → ∃ stored, store.StoredAs record stored now ∧
      RetainedWithin host store live items later stored outcome.items) ∧
    ((∀ stored after, store.StoredAs record stored now →
        ¬ RetainedWithin host store live items later stored after) →
      (∃ error, outcome.answer = .error error) ∧ outcome.items = items) := by
  intro outcome
  have success : outcome.answer = .ok () → ∃ stored, store.StoredAs record stored now ∧
      RetainedWithin host store live items later stored outcome.items := by
    intro done
    obtain ⟨stored, valid, gone, kept, written, inspected, decided, lookup⟩ := upsert_ok done
    exact ⟨stored, written, retainedWithin_of_decided inspected decided lookup⟩
  refine ⟨?_, success, ?_⟩
  · intro exceeds detail kept size victims
    exact evictWithin_eq host store live exceeds detail kept size victims _ (Nat.lt_succ_self _)
  · intro impossible
    cases answered : outcome.answer with
    | ok done =>
      obtain ⟨stored, written, retained⟩ := success answered
      exact absurd retained (impossible stored _ written)
    | error error =>
      exact ⟨⟨error, rfl⟩,
        (upsert_respects host store live items record now later).refused error answered⟩

end RecoveryStore

end KnotEditor.Desktop
