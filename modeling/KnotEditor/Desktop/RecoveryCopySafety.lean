import KnotEditor.Desktop.RecoverySyncSteps
import KnotEditor.Library.Run

/-! Every unsaved document has its recovery copy, as long as no document comes back to the state of an
offer whose copy was removed. -/

namespace KnotEditor.Desktop

open KeyedCollections WriteBehind

namespace DesktopRecovery

variable {host : RecoveryDigest} {failed : List RecoveryId} {desk : DesktopRecovery host}
  {schedule : SyncSchedule} {key : DocKey} {entry : DocumentEntry host}

section Sync

def clearedBy (desk : DesktopRecovery host) (schedule : SyncSchedule) : DesktopRecovery host :=
  (desk.observeAll schedule).clearAll schedule ((desk.decisions schedule).filterMap resolvedOf)

def offersOf (desk : DesktopRecovery host) (schedule : SyncSchedule) : List (Offer host) :=
  (desk.decisions schedule).filterMap offerOf

def offeredBy (desk : DesktopRecovery host) (schedule : SyncSchedule) :
    RecoveryRuntime × List (Offer host) :=
  (desk.offersOf schedule).foldl (offerCopy schedule) ((desk.clearedBy schedule).recovery, [])

def settledBy (desk : DesktopRecovery host) (schedule : SyncSchedule) : RecoveryRuntime :=
  ((desk.offeredBy schedule).1.retry schedule.retry).work schedule.drain

theorem syncRecovery_eq (desk : DesktopRecovery host) (schedule : SyncSchedule) :
    desk.syncRecovery schedule =
      (((desk.offeredBy schedule).2.foldl accept { desk.clearedBy schedule with
            recovery := (desk.settledBy schedule).drainError.2 }).forgetFailed
          (desk.settledBy schedule).drainError.1.2).reportDrained
        (desk.settledBy schedule).drainError.1.1 := rfl

theorem syncRecovery_drained (desk : DesktopRecovery host) (schedule : SyncSchedule) :
    (desk.syncRecovery schedule).recovery = (desk.settledBy schedule).drainError.2 := by
  rw [syncRecovery_eq]
  cases (desk.settledBy schedule).drainError.1.1 <;> exact accepts_recovery _

theorem mem_decisions_iff (decision : SyncDecision host) :
    (key, decision) ∈ desk.decisions schedule ↔
      ∃ entry, desk.docs[key]? = some entry ∧ desk.decision schedule key entry = decision := by
  rw [decisions, List.mem_map]
  constructor
  · rintro ⟨⟨found, entry⟩, member, same⟩
    cases same
    exact ⟨entry, Std.ExtTreeMap.mem_toList_iff_getElem?_eq_some.mp member, rfl⟩
  · rintro ⟨entry, held, rfl⟩
    exact ⟨(key, entry), Std.ExtTreeMap.mem_toList_iff_getElem?_eq_some.mpr held, rfl⟩

theorem decisions_apart (desk : DesktopRecovery host) (schedule : SyncSchedule) :
    (desk.decisions schedule).Pairwise fun one two => one.1 ≠ two.1 := by
  refine List.Pairwise.map _ ?_ Std.ExtTreeMap.distinct_keys_toList
  intro one two differs same
  exact differs (Std.LawfulEqOrd.compare_eq_iff_eq.mpr same)

theorem offersOf_apart (desk : DesktopRecovery host) (schedule : SyncSchedule) :
    (desk.offersOf schedule).Pairwise fun one two => one.key ≠ two.key := by
  have named : ∀ (item : DocKey × SyncDecision host) offer, offerOf item = some offer →
      offer.key = item.1 := by
    rintro ⟨key, decision⟩ offer found
    cases decision with
    | offer id fingerprint record =>
      cases found
      rfl
    | keep => cases found
    | resolve => cases found
    | oversized message => cases found
  refine (desk.decisions_apart schedule).filterMap _ ?_
  intro one two differs first left second right
  rw [named one first left, named two second right]
  exact differs

theorem mem_offersOf_iff (offer : Offer host) :
    offer ∈ desk.offersOf schedule ↔ ∃ entry id, desk.docs[offer.key]? = some entry ∧
      desk.decision schedule offer.key entry = .offer id offer.fingerprint offer.record := by
  rw [offersOf, List.mem_filterMap]
  constructor
  · rintro ⟨⟨key, decision⟩, member, found⟩
    cases decision with
    | offer id fingerprint record =>
      cases found
      rcases (mem_decisions_iff _).mp member with ⟨entry, held, decided⟩
      exact ⟨entry, id, held, decided⟩
    | keep => cases found
    | resolve => cases found
    | oversized message => cases found
  · rintro ⟨entry, id, held, decided⟩
    exact ⟨_, (mem_decisions_iff _).mpr ⟨entry, held, decided⟩, rfl⟩

theorem mem_resolved (member : key ∈ (desk.decisions schedule).filterMap resolvedOf) :
    ∃ entry, desk.docs[key]? = some entry ∧ entry.unsaved = false := by
  rcases List.mem_filterMap.mp member with ⟨⟨found, decision⟩, listed, same⟩
  cases decision with
  | resolve =>
    cases same
    rcases (mem_decisions_iff _).mp listed with ⟨entry, held, decided⟩
    exact ⟨entry, held, decision_resolve decided⟩
  | keep => cases same
  | oversized message => cases same
  | offer id fingerprint record => cases same

theorem Sound.clearedBy (sound : Sound [] failed desk) (fresh : FreshDraws desk schedule) :
    Sound [] failed (desk.clearedBy schedule) :=
  (sound.observeAll fresh).clearAll schedule _

theorem clearedBy_unsaved (sound : Sound [] failed desk) (fresh : FreshDraws desk schedule)
    {was : DocumentEntry host} (before : desk.docs[key]? = some was)
    (unsaved : was.unsaved = true) :
    (desk.clearedBy schedule).docs[key]? = some (assign (desk.decision schedule key was) was) ∧
      ∀ id observation, (assign (desk.decision schedule key was) was).recoveryId = some id →
        Held desk.recovery id observation →
          Held (desk.clearedBy schedule).recovery id observation := by
  have unlisted : key ∉ (desk.decisions schedule).filterMap resolvedOf := by
    intro member
    rcases mem_resolved member with ⟨entry, held, saved⟩
    rw [before] at held
    cases held
    rw [unsaved] at saved
    cases saved
  rcases clearAll_other (sound.observeAll fresh) schedule _ unlisted with ⟨docs, holding⟩
  rcases observeAll_kept desk schedule with ⟨observed, recovery⟩
  have assigned : (desk.observeAll schedule).docs[key]? =
      some (assign (desk.decision schedule key was) was) := by
    rw [observed, DesktopRecovery.assigned, Std.ExtTreeMap.getElem?_map, before]
    rfl
  refine ⟨docs.trans assigned, ?_⟩
  intro id observation known holds
  exact holding _ id observation assigned known (recovery ▸ holds)

theorem offersOf_placed (sound : Sound [] failed desk) (fresh : FreshDraws desk schedule)
    (offer : Offer host) (member : offer ∈ desk.offersOf schedule) :
    Placed (desk.clearedBy schedule).docs offer := by
  rcases (mem_offersOf_iff offer).mp member with ⟨was, id, before, decided⟩
  rcases offer with ⟨key, fingerprint, record⟩
  change desk.docs[key]? = some was at before
  change desk.decision schedule key was = .offer id fingerprint record at decided
  rcases decision_offer decided with ⟨unsaved, _, rfl, rfl⟩
  have held := (clearedBy_unsaved sound fresh before unsaved).1
  rw [decided] at held
  exact ⟨⟨_, held, rfl⟩, ⟨_, rfl⟩, was.observation.anchorBound, was.observation.headBound⟩

theorem offeredBy_allCopied (sound : Sound [] [] desk) (fresh : FreshDraws desk schedule) :
    AllCopied (desk.clearedBy schedule) (desk.clearedBy schedule).recovery
      (desk.offersOf schedule) (desk.offeredBy schedule) :=
  offers_allCopied schedule _ _ [] (sound.clearedBy fresh) (offersOf_placed sound fresh) (by simp)
    (desk.offersOf_apart schedule)

theorem Sound.syncRecovery (sound : Sound [] [] desk) (fresh : FreshDraws desk schedule) :
    Sound [] [] (desk.syncRecovery schedule) := by
  have copied := offeredBy_allCopied sound fresh
  have retried := RecoveryRuntime.retry_carried copied.sound.orderly schedule.retry
  have worked := RecoveryRuntime.work_worked retried.orderly schedule.drain
  have settled := copied.sound.carried (retried.trans worked.toCarried)
  rw [syncRecovery_eq]
  exact settled.drain.accepts.forgetFailed.reportDrained _

theorem syncRecovery_alike (sound : Sound [] [] desk) (fresh : FreshDraws desk schedule)
    (held : (desk.syncRecovery schedule).docs[key]? = some entry) :
    ∃ was, desk.docs[key]? = some was ∧ entry.observation = was.observation ∧
      (entry.unsaved = true → was.unsaved = true ∧
        entry.recoveryId = (assign (desk.decision schedule key was) was).recoveryId) := by
  have docs : ∀ error (last : DesktopRecovery host),
      (last.reportDrained error).docs = last.docs := by
    intro error last
    cases error <;> rfl
  rw [syncRecovery_eq, docs] at held
  rcases forgetFailed_alike _ held with ⟨third, later, last⟩
  rcases accepts_alike _ later with ⟨second, middle, alike⟩
  have between : (desk.clearedBy schedule).docs[key]? = some second := middle
  rcases clearAll_observation (sound.observeAll fresh) schedule _ between with
    ⟨first, observed, text, candidate⟩
  rw [(observeAll_kept desk schedule).1] at observed
  rcases held_of_assigned observed with ⟨was, before, rfl⟩
  have kept := assign_kept (desk.decision schedule key was) was
  have observation : entry.observation = was.observation :=
    last.observation.trans (alike.observation.trans (text.trans kept.1))
  refine ⟨was, before, observation, fun unsaved => ?_⟩
  have open' : was.unsaved = true := by
    simp only [DocumentEntry.unsaved, Bool.or_eq_true] at unsaved ⊢
    rw [observation] at unsaved
    refine unsaved.imp_right fun is => ?_
    rw [last.recoveryCandidate, alike.recoveryCandidate] at is
    exact kept.2.1 ▸ candidate is
  refine ⟨open', ?_⟩
  have same := (clearedBy_unsaved sound fresh before open').1
  rw [between] at same
  cases same
  exact last.recoveryId.trans alike.recoveryId

end Sync

section Coverage

theorem put_mem_edits {queue : List Command} {id : RecoveryId} {record : RecoveryRecord}
    (member : Edit.put id record ∈ edits queue) : record.id = id := by
  rcases List.mem_filterMap.mp member with ⟨command, _, edit⟩
  cases command <;> cases edit
  rfl

theorem onItsWay_of_latest {recovery : RecoveryRuntime} (orderly : recovery.Orderly)
    {id : RecoveryId} {record : RecoveryRecord} (held : recovery.latest id = some record) :
    record.id = id ∧ OnItsWay recovery record := by
  rcases Option.or_eq_some_iff.mp held with deferred | ⟨_, queued⟩
  · have same := orderly.deferred id record deferred
    subst same
    exact ⟨rfl, Or.inl deferred⟩
  · rcases afterAll_eq_some_iff.mp queued with ⟨disk, untouched⟩ | ⟨front, back, split, untouched⟩
    · have kept : recovery.pending[id]? = some record ∨ recovery.stored[id]? = some record :=
        (Option.or_eq_some_iff.mp disk).imp_right And.right
      have same : record.id = id := kept.elim (orderly.pending id record) (orderly.stored id record)
      subst same
      exact ⟨rfl, Or.inr (Or.inr ⟨kept, fun dropped => untouched _ dropped rfl⟩)⟩
    · have same : record.id = id := put_mem_edits (by rw [split]; simp)
      subst same
      exact ⟨rfl, Or.inr (Or.inl ⟨front, back, split, fun dropped => untouched _ dropped rfl⟩)⟩

theorem drained_told {recovery : RecoveryRuntime} {id : RecoveryId}
    (told : recovery.Failed id ∨ recovery.localError.isSome = true) :
    ∃ message, recovery.drainError.1.1 = some message := by
  rw [RecoveryRuntime.drainError]
  rcases List.eq_nil_or_concat recovery.results with none | ⟨front, last, results⟩
  · rw [none]
    rcases told with ⟨message, member⟩ | error
    · rw [none] at member
      cases member
    · exact Option.isSome_iff_exists.mp error
  · rw [results, List.concat_eq_append]
    exact ⟨last.2, by simp⟩

theorem covered_of_held (sound : Sound [] [] (desk.syncRecovery schedule))
    (entry : DocumentEntry host) {id : RecoveryId} (known : entry.recoveryId = some id)
    (holds : Held (desk.settledBy schedule) id entry.observation) :
    (∃ record, entry.CopiedBy record ∧
      OnItsWay (desk.syncRecovery schedule).recovery record) ∨
        reportedSince key (desk.syncRecovery schedule).log = true := by
  rcases holds with ⟨record, held, text, selection⟩ | told
  · refine Or.inl ⟨record, ?_⟩
    have found : (desk.syncRecovery schedule).recovery.latest id = some record := by
      rw [syncRecovery_drained]
      exact held
    rcases onItsWay_of_latest sound.orderly found with ⟨rfl, onItsWay⟩
    exact ⟨⟨known, text, selection⟩, onItsWay⟩
  · refine Or.inr ?_
    rcases drained_told told with ⟨message, error⟩
    rw [syncRecovery_eq, error]
    exact reportedSince_reported key _

theorem needsCopy_of_observation {was : DocumentEntry host}
    (needs : entry.needsCopy = true) (same : entry.observation = was.observation)
    (unsaved : was.unsaved = true) : was.needsCopy = true := by
  simp only [DocumentEntry.needsCopy, Bool.and_eq_true] at needs ⊢
  refine ⟨⟨unsaved, ?_⟩, ?_⟩
  · have copyable := needs.1.2
    simp only [DocumentEntry.copyable, DocumentEntry.localScratch] at copyable ⊢
    rw [same] at copyable
    exact copyable
  · have fits := needs.2
    simp only [DocumentEntry.fits] at fits ⊢
    rw [same] at fits
    exact fits

theorem held_of_backed (injective : Function.Injective host.blake3) {recovery : RecoveryRuntime}
    {id : RecoveryId} {focused : Bool} (entry : DocumentEntry host)
    (backed : Backed recovery [] id (entry.fingerprint focused)) :
    Held recovery id entry.observation := by
  rcases backed with ⟨record, hinted, held, hashed, anchor, head⟩ | failing | listed
  · rcases fingerprintBytes_injective _ _ _ _ _ _ entry.observation.anchorBound
      entry.observation.headBound anchor head (injective hashed) with ⟨text, selection⟩
    exact Or.inl ⟨record, held, text.symm, selection.symm⟩
  · exact Or.inr (Or.inl failing)
  · cases listed

theorem syncRecovery_covered (sound : Sound [] [] desk) (fresh : FreshDraws desk schedule)
    (trusted : Trusted desk) (injective : Function.Injective host.blake3) :
    Covered (desk.syncRecovery schedule) := by
  intro key entry held needs
  have unsaved : entry.unsaved = true := by
    simp only [DocumentEntry.needsCopy, Bool.and_eq_true] at needs
    exact needs.1.1
  rcases syncRecovery_alike sound fresh held with ⟨was, before, text, more⟩
  rcases more unsaved with ⟨open', ids⟩
  have needed := needsCopy_of_observation needs text open'
  have copied := offeredBy_allCopied sound fresh
  have retried := RecoveryRuntime.retry_carried copied.sound.orderly schedule.retry
  have worked := RecoveryRuntime.work_worked retried.orderly schedule.drain
  have settled : ∀ id, entry.recoveryId = some id →
      Held (desk.offeredBy schedule).1 id entry.observation →
        Held (desk.settledBy schedule) id entry.observation :=
    fun id _ holds => holds.carried (retried.trans worked.toCarried)
  have cleared := clearedBy_unsaved sound fresh before open'
  rcases decision_of_needsCopy needed with ⟨keep, remembered⟩ | ⟨id, fingerprint, record, decided⟩
  · rcases Option.isSome_iff_exists.mp (sound.named key was before (by rw [remembered]; rfl)) with
      ⟨id, known⟩
    rw [keep] at cleared ids
    have same : entry.recoveryId = some id := ids.trans known
    have stands : Held desk.recovery id was.observation := by
      rcases sound.backed key was before (by simp) id _ known remembered with removed | backed
      · rw [trusted key was before needed remembered id known] at removed
        cases removed
      · exact held_of_backed injective was backed
    have others : ∀ offer ∈ desk.offersOf schedule, offer.record.id ≠ id := by
      intro offer member
      refine (offersOf_placed sound fresh offer member).apart (sound.clearedBy fresh).distinct cleared.1 ?_
        known
      rintro rfl
      rcases (mem_offersOf_iff offer).mp member with ⟨found, drawn, holding, offers⟩
      rw [before] at holding
      cases holding
      rw [keep] at offers
      cases offers
    refine covered_of_held (sound.syncRecovery fresh) entry same (settled id same ?_)
    rw [text]
    exact copied.others id others _ (cleared.2 id _ known stands)
  · rw [decided] at ids
    rcases decision_offer decided with ⟨_, _, _, shape⟩
    have own := copied.own ⟨key, fingerprint, record⟩
      ((mem_offersOf_iff _).mpr ⟨was, id, before, decided⟩) entry.observation
      (by rw [shape, text]; rfl) (by rw [shape, text]; rfl)
    have named : record.id = id := by
      rw [shape]
      rfl
    have same : entry.recoveryId = some id := ids
    rw [named] at own
    exact covered_of_held (sound.syncRecovery fresh) entry same (settled id same own)

end Coverage

section Withdrawals

variable {id : RecoveryId}

theorem ClearFailed.later {before middle after : DesktopRecovery host}
    (missed : ClearFailed before middle id) (log : middle.log <+: after.log) :
    ClearFailed before after id := by
  rcases missed with ⟨events, same, told⟩
  rcases log with ⟨more, later⟩
  refine ⟨events ++ more, ?_, told.trans (List.prefix_append _ _).isInfix⟩
  rw [← later, same, List.append_assoc]

theorem ClearFailed.earlier {before middle after : DesktopRecovery host}
    (missed : ClearFailed middle after id) (log : before.log <+: middle.log) :
    ClearFailed before after id := by
  rcases missed with ⟨events, same, told⟩
  rcases log with ⟨more, later⟩
  refine ⟨more ++ events, ?_, told.trans (List.suffix_append _ _).isInfix⟩
  rw [same, ← later, List.append_assoc]

/-- A copy is gone, with no unsaved document that would have it offered again, or clearing it
failed. -/
def Gone (before after : DesktopRecovery host) (id : RecoveryId) : Prop :=
  (after.recovery.Absent id ∧ ∀ (key : DocKey) entry, after.docs[key]? = some entry →
      entry.recoveryId = some id → entry.unsaved = false) ∨
    ClearFailed before after id

theorem gone_of_retired {before after : DesktopRecovery host} (retired : Retired after id) :
    Gone before after id :=
  Or.inl ⟨retired.absent, fun key entry held known => absurd known (retired.unheld key entry held)⟩

theorem removeCopy_gone (sound : Sound [] failed desk) (failure : String) (id : RecoveryId)
    (wait : Wait) :
    (desk.removeCopy failure id wait).2.docs = desk.docs ∧
      ((desk.removeCopy failure id wait).2.recovery.Absent id ∨
        (desk.removeCopy failure id wait).1 = false ∧
          ClearFailed desk (desk.removeCopy failure id wait).2 id) := by
  rcases removeCopy_cases sound.orderly failure id wait with
    ⟨recovery, result, cleared, ⟨ok, done⟩ | ⟨message, failing⟩⟩
  · rw [done]
    exact ⟨rfl, Or.inl (cleared.gone ok)⟩
  · rw [failing]
    refine ⟨rfl, Or.inr ⟨rfl, [.uncleared id, .reported], ?_, List.infix_rfl⟩⟩
    simp [reportError]

theorem clearRecoveryFor_gone (sound : Sound [] failed desk) (wait : Wait)
    (held : desk.docs[key]? = some entry) (known : entry.recoveryId = some id) :
    Retired (desk.clearRecoveryFor key wait) id ∨
      ClearFailed desk (desk.clearRecoveryFor key wait) id := by
  rcases clearRecoveryFor_cases sound.orderly key wait with
    ⟨none, _⟩ | ⟨found, other, recovery, result, holding, knows, cleared, outcome⟩
  · rw [none entry held] at known
    cases known
  · rw [held] at holding
    cases holding
    cases known.symm.trans knows
    rcases outcome with ⟨ok, done⟩ | ⟨message, failing⟩
    · rw [done]
      refine Or.inl ⟨cleared.gone ok, ?_⟩
      intro query found holding same
      rcases held_of_modify _ _ _ holding with ⟨was, before, rfl⟩
      by_cases here : key = query
      · rw [if_pos here] at same
        cases same
      · rw [if_neg here] at same
        exact here (sound.distinct key query entry was id held before known same)
    · rw [failing]
      refine Or.inr ⟨[.uncleared id, .reported], ?_, List.infix_rfl⟩
      simp [reportError]

theorem clearEach_gone (sound : Sound [] failed desk) (wait : DocKey → Wait) (keys : List DocKey)
    (member : key ∈ keys) (held : desk.docs[key]? = some entry)
    (known : entry.recoveryId = some id) :
    Gone desk (keys.foldl (fun desk key => desk.clearRecoveryFor key (wait key)) desk) id := by
  induction keys generalizing desk with
  | nil => cases member
  | cons first rest ih =>
    have cleared := withdrawn_clearRecoveryFor sound first (wait first)
    have later := withdrawn_clearEach wait rest cleared.sound
    by_cases here : first = key
    · subst here
      rcases clearRecoveryFor_gone sound (wait first) held known with retired | missed
      · exact gone_of_retired (later.retired retired)
      · exact Or.inr (missed.later later.log)
    · have inner : key ∈ rest := (List.mem_cons.mp member).resolve_left (Ne.symm here)
      have still := (clearRecoveryFor_other sound.orderly first (wait first) here).trans held
      exact (ih cleared.sound inner still).imp_right (ClearFailed.earlier · cleared.log)

theorem clearCopy_docs (sound : Sound [] failed desk) (wait : DocKey → Wait)
    (copy : DocKey × RecoveryId) : (clearCopy wait desk copy).docs = desk.docs := by
  rw [clearCopy]
  split
  · rfl
  · exact (removeCopy_gone sound _ copy.2 (wait copy.1)).1

theorem clearCopies_gone (sound : Sound [] failed desk) (wait : DocKey → Wait) (key : DocKey)
    (id : RecoveryId) (copies : List (DocKey × RecoveryId)) :
    (copies.foldl (clearCopy wait) desk).docs = desk.docs ∧
      ((key, id) ∈ copies → desk.isUnsaved key = false →
        (copies.foldl (clearCopy wait) desk).recovery.Absent id ∨
          ClearFailed desk (copies.foldl (clearCopy wait) desk) id) := by
  induction copies generalizing desk with
  | nil => exact ⟨rfl, by intros; contradiction⟩
  | cons first rest ih =>
    have cleared := withdrawn_clearCopy wait first sound
    have later := withdrawn_clearCopies wait rest cleared.sound
    have docs := clearCopy_docs sound wait first
    rcases ih cleared.sound with ⟨same, gone⟩
    refine ⟨same.trans docs, fun member saved => ?_⟩
    rcases List.mem_cons.mp member with rfl | inner
    · have step : clearCopy wait desk (key, id) = (desk.clearRecoveryId id (wait key)).2 := by
        simp [clearCopy, saved]
      rw [List.foldl_cons]
      rw [step] at later ⊢
      rcases (removeCopy_gone sound "Could not clear document recovery copy" id
        (wait key)).2 with absent | ⟨_, missed⟩
      · exact Or.inl (later.absent id absent)
      · exact Or.inr (missed.later later.log)
    · have still : (clearCopy wait desk first).isUnsaved key = false := by
        rw [isUnsaved, docs]
        exact saved
      exact (gone inner still).imp_right (ClearFailed.earlier · cleared.log)

theorem mem_copiesOf {action : DiscardAction} (other : action ≠ .quit)
    (member : key ∈ desk.discarded action) (held : desk.docs[key]? = some entry)
    (known : entry.recoveryId = some id) : (key, id) ∈ desk.copiesOf action := by
  cases action with
  | quit => exact absurd rfl other
  | closeDocument closed =>
    cases List.mem_singleton.mp member
    simp [copiesOf, held, known]
  | closeSite pages =>
    rcases List.mem_filter.mp member with ⟨page, dirty⟩
    rw [held] at dirty
    refine List.mem_filterMap.mpr ⟨key, page, ?_⟩
    have dirty : entry.observation.dirty = true := dirty
    simp [held, known, dirty]
  | reload =>
    have focused : desk.focused = some key := by simpa [discarded] using member
    simp [copiesOf, focused, held, known]

theorem confirmDiscard_gone (sound : Sound [] failed desk) (action : DiscardAction)
    (outcome : DiscardOutcome) (wait : DocKey → Wait) (member : key ∈ desk.discarded action)
    (through : action = .quit ∨ (desk.perform outcome action).isUnsaved key = false)
    (held : desk.docs[key]? = some entry) (known : entry.recoveryId = some id) :
    Gone desk (desk.confirmDiscard action outcome wait) id := by
  by_cases quits : action = .quit
  · subst quits
    exact clearEach_gone sound wait _ member held known
  · have saved := through.resolve_left quits
    have performed := withdrawn_perform sound outcome action
    have cleared := clearCopies_gone performed.sound wait key id (desk.copiesOf action)
    have same : desk.confirmDiscard action outcome wait =
        (desk.copiesOf action).foldl (clearCopy wait) (desk.perform outcome action) := by
      cases action with
      | quit => exact absurd rfl quits
      | closeDocument _ => rfl
      | closeSite _ => rfl
      | reload => rfl
    rw [same]
    rcases cleared.2 (mem_copiesOf quits member held known) saved with absent | missed
    · refine Or.inl ⟨absent, ?_⟩
      intro query found holding knows
      rw [cleared.1] at holding
      rcases performed.holder query found id holding knows with ⟨was, before, knew⟩
      cases sound.distinct query key was entry id before held knew known
      rw [isUnsaved, holding] at saved
      exact saved
    · exact Or.inr (missed.earlier performed.log)

theorem settled_open {operation : DocumentOperation} (member : key ∈ desk.settled operation) :
    ∃ entry, desk.docs[key]? = some entry := by
  have contained : ∀ {key : DocKey}, desk.docs.contains key = true →
      ∃ entry, desk.docs[key]? = some entry := by
    intro key held
    rw [Std.ExtTreeMap.contains_eq_isSome_getElem?] at held
    exact Option.isSome_iff_exists.mp held
  cases operation with
  | save saved observation wait =>
    simp only [settled] at member
    split at member
    · rename_i through
      cases List.mem_singleton.mp member
      exact contained (Bool.and_eq_true_iff.mp through).2
    · cases member
  | discard action outcome wait =>
    exact contained (Bool.and_eq_true_iff.mp (List.mem_filter.mp member).2).1
  | discardRecovery removed refused wait =>
    simp only [settled] at member
    split at member
    · cases member
    · rcases Option.map_eq_some_iff.mp (Option.mem_toList.mp member) with ⟨⟨found, entry⟩, located, rfl⟩
      exact ⟨entry, Std.ExtTreeMap.mem_toList_iff_getElem?_eq_some.mp
        (List.mem_of_find?_eq_some located)⟩
  | edit _ _ => cases member
  | focus _ => cases member
  | openDocument _ => cases member
  | close _ _ => cases member
  | flush _ _ => cases member

theorem discardRecovery_gone (sound : Sound [] failed desk) (removed : RecoveryId) (refused : Bool)
    (wait : Wait) (member : key ∈ desk.settled (.discardRecovery removed refused wait))
    (held : desk.docs[key]? = some entry) (known : entry.recoveryId = some id) :
    Gone desk (desk.discardRecovery removed refused wait) id := by
  simp only [settled] at member
  split at member
  · cases member
  · rename_i through
    rcases Option.map_eq_some_iff.mp (Option.mem_toList.mp member) with ⟨⟨found, owner⟩, located, rfl⟩
    have holding : desk.docs[found]? = some owner :=
      Std.ExtTreeMap.mem_toList_iff_getElem?_eq_some.mp (List.mem_of_find?_eq_some located)
    have knows : owner.recoveryId = some removed := by
      simpa using List.find?_some located
    cases held.symm.trans holding
    cases known.symm.trans knows
    rcases removeCopy_cases sound.orderly "Recovery discard failed" id wait with
      ⟨recovery, result, cleared, ⟨ok, done⟩ | ⟨message, failing⟩⟩
    · simp only [DesktopRecovery.discardRecovery, done, located]
      rw [closeDocument, if_neg through]
      refine gone_of_retired ⟨cleared.gone ok, ?_⟩
      intro query other holds same
      rcases held_of_erase holds with ⟨differs, before⟩
      exact differs (sound.distinct found query entry other id held before known same)
    · simp only [DesktopRecovery.discardRecovery, failing]
      refine Or.inr ⟨[.uncleared id, .reported], ?_, List.infix_rfl⟩
      simp [reportError]

/-- Nothing offered for a document that an operation saves or discards is left, unless clearing it
failed. -/
theorem operate_gone (sound : Sound [] failed desk) (operation : DocumentOperation)
    (member : key ∈ desk.settled operation) (logged : .offered key id ∈ desk.log) :
    Gone desk (desk.operate operation) id := by
  rcases settled_open member with ⟨entry, held⟩
  rcases (sound.logged key id logged).2 entry held with known | retired
  · cases operation with
    | save saved observation wait =>
      simp only [settled] at member
      split at member
      · rename_i through
        cases List.mem_singleton.mp member
        cases observation with
        | none => cases through
        | some observation =>
          have edited := withdrawn_edit sound key { observation with dirty := false }
          have still : (desk.edit key { observation with dirty := false }).docs[key]? =
              some { entry with observation := { observation with dirty := false } } := by
            rw [edit, Std.ExtTreeMap.getElem?_modify_self, held]
            rfl
          rcases clearRecoveryFor_gone edited.sound wait still known with retired | missed
          · exact gone_of_retired retired
          · exact Or.inr (missed.earlier edited.log)
      · cases member
    | discard action outcome wait =>
      rcases List.mem_filter.mp member with ⟨about, through⟩
      have done := (Bool.and_eq_true_iff.mp through).2
      rw [Bool.or_eq_true, beq_iff_eq, Bool.not_eq_true'] at done
      exact confirmDiscard_gone sound action outcome wait about done held known
    | discardRecovery removed refused wait =>
      exact discardRecovery_gone sound removed refused wait member held known
    | edit _ _ => cases member
    | focus _ => cases member
    | openDocument _ => cases member
    | close _ _ => cases member
    | flush _ _ => cases member
  · exact gone_of_retired ((withdrawn_operate sound operation).retired retired)

theorem log_reports (items : List (DocKey × SyncDecision host)) (desk : DesktopRecovery host) :
    desk.log <+: (items.foldl reportOversized desk).log := by
  induction items generalizing desk with
  | nil => exact List.prefix_rfl
  | cons item rest ih =>
    refine List.IsPrefix.trans ?_ (ih (reportOversized desk item))
    rcases item with ⟨key, decision⟩
    cases decision with
    | oversized message => exact List.prefix_append _ _
    | keep => exact List.prefix_rfl
    | resolve => exact List.prefix_rfl
    | offer _ _ _ => exact List.prefix_rfl

theorem log_accepts (accepted : List (Offer host)) (desk : DesktopRecovery host) :
    desk.log <+: (accepted.foldl accept desk).log := by
  induction accepted generalizing desk with
  | nil => exact List.prefix_rfl
  | cons offer rest ih => exact List.IsPrefix.trans (List.prefix_append _ _) (ih (desk.accept offer))

theorem log_syncRecovery (sound : Sound [] [] desk) (fresh : FreshDraws desk schedule) :
    desk.log <+: (desk.syncRecovery schedule).log := by
  have observed : desk.log <+: (desk.observeAll schedule).log :=
    log_reports (desk.decisions schedule) (desk.assigned schedule)
  have cleared := (withdrawn_clearEach schedule.clear
    ((desk.decisions schedule).filterMap resolvedOf) (sound.observeAll fresh)).log
  have accepted := log_accepts (desk.offeredBy schedule).2 { desk.clearedBy schedule with
    recovery := (desk.settledBy schedule).drainError.2 }
  refine (observed.trans cleared).trans (accepted.trans ?_)
  rw [syncRecovery_eq]
  cases (desk.settledBy schedule).drainError.1.1 with
  | none => exact List.prefix_rfl
  | some message => exact List.prefix_append _ _

theorem syncRecovery_absent (sound : Sound [] [] desk) (fresh : FreshDraws desk schedule)
    (absent : desk.recovery.Absent id)
    (idle : ∀ (key : DocKey) entry, desk.docs[key]? = some entry → entry.recoveryId = some id →
      entry.unsaved = false)
    (undrawn : ∀ key ∈ desk.docs, schedule.draw key ≠ id) :
    (desk.syncRecovery schedule).recovery.Absent id := by
  have copied := offeredBy_allCopied sound fresh
  have retried := RecoveryRuntime.retry_carried copied.sound.orderly schedule.retry
  have worked := RecoveryRuntime.work_worked retried.orderly schedule.drain
  have cleared : (desk.clearedBy schedule).recovery.Absent id := by
    refine (withdrawn_clearEach schedule.clear _ (sound.observeAll fresh)).absent id ?_
    rw [(observeAll_kept desk schedule).2]
    exact absent
  have unoffered : ∀ offer ∈ desk.offersOf schedule, offer.record.id ≠ id := by
    intro offer member
    rcases (mem_offersOf_iff offer).mp member with ⟨entry, drawn, held, decided⟩
    rcases decision_offer decided with ⟨unsaved, named, _, record⟩
    rw [record]
    change drawn ≠ id
    rintro rfl
    cases known : entry.recoveryId with
    | none =>
      rw [known] at named
      exact undrawn offer.key (Std.ExtTreeMap.mem_iff_isSome_getElem?.mpr (held ▸ rfl))
        named.symm
    | some old =>
      rw [known] at named
      cases named
      rw [idle _ entry held known] at unsaved
      cases unsaved
  have settled : (desk.settledBy schedule).Absent id :=
    (retried.trans worked.toCarried).absent id (copied.absent id unoffered cleared)
  rw [syncRecovery_drained]
  exact ⟨settled.deferred, settled.pending, settled.stored, settled.queued, settled.unclaimed⟩

theorem turn_withdrew (sound : Sound [] [] desk) (turn : RecoveryTurn)
    (fresh : FreshDraws (desk.operated turn) turn.sync) : Withdrew desk turn := by
  intro key member id logged
  have paused := withdrawn_pauses sound turn.before
  have operated := withdrawn_operate paused.sound turn.operation
  have refocused := withdrawn_refocus operated.sound turn.refocused
  have told := paused.log.trans operated.log
  have synced := log_syncRecovery refocused.sound fresh
  rcases operate_gone paused.sound turn.operation member (paused.log.subset logged) with
    ⟨absent, idle⟩ | missed
  · refine Or.inl (syncRecovery_absent refocused.sound fresh absent idle ?_)
    rintro drawn here rfl
    exact fresh.unlogged drawn here _ (told.subset logged) rfl
  · exact Or.inr ((missed.later synced).earlier paused.log)

end Withdrawals

section Runs

theorem Starting.sound (starting : Starting desk) : Sound [] [] desk where
  orderly := starting.orderly
  keys := starting.keys
  distinct := starting.distinct
  named := by
    intro key entry held remembered
    rw [starting.unremembered key entry held] at remembered
    cases remembered
  backed := by
    intro key entry held _ id fingerprint _ remembered
    rw [starting.unremembered key entry held] at remembered
    cases remembered
  accepted := by simp
  logged := by
    intro key id member
    rw [starting.unlogged] at member
    cases member

/-- Every unsaved document has its recovery copy after each sync, and a saved or discarded one none,
in every run that trusts no fingerprint whose copy was removed. -/
theorem recovery_copies_hold (injective : Function.Injective host.blake3)
    (start : DesktopRecovery host) (starting : Starting start) (turns : List RecoveryTurn)
    (along : Run.Along turn (fun desk turn =>
      FreshDraws (desk.operated turn) turn.sync ∧ Trusted (desk.operated turn)) start turns) :
    Run.Along turn (fun desk turn => Covered (desk.turn turn) ∧ Withdrew desk turn) start turns := by
  refine Run.along_of_invariant ?_ ?_ turns start starting.sound along
  · intro desk turn sound allowed
    exact (sound.operated turn).syncRecovery allowed.1
  · intro desk turn sound allowed
    exact ⟨syncRecovery_covered (sound.operated turn) allowed.1 allowed.2 injective,
      turn_withdrew sound turn allowed.1⟩

def wholeDigest : RecoveryDigest where
  Digest := List UInt8
  decideEq := inferInstance
  blake3 := id

def noteObservation (source : String) (dirty : Bool) : RecoveryObservation where
  source := source
  format := .knot
  selection := {}
  dirty := dirty
  posture := .fileTarget
  address := "note.knot"
  sourcePath := some "note.knot"
  anchorBound := Nat.zero_le _
  headBound := Nat.zero_le _

def noteDesk : DesktopRecovery wholeDigest where
  docs := (∅ : Std.ExtTreeMap DocKey (DocumentEntry wholeDigest)).insert 1
    { observation := noteObservation "calm" false }
  focused := some 1
  nextDoc := 2
  recovery := { sessionId := none }

theorem noteDesk_starting : Starting noteDesk := by
  have only : ∀ (key : DocKey) entry, noteDesk.docs[key]? = some entry →
      key = 1 ∧ entry = { observation := noteObservation "calm" false } := by
    intro key entry held
    by_cases same : 1 = key
    · subst same
      rw [noteDesk, Std.ExtTreeMap.getElem?_insert_self] at held
      exact ⟨rfl, (Option.some.inj held).symm⟩
    · rw [noteDesk, getElem?_insert_of_ne _ same, Std.ExtTreeMap.getElem?_empty] at held
      cases held
  refine ⟨RecoveryRuntime.orderly_start none [] none, ?_, ?_, ?_, rfl⟩
  · intro key entry held
    rw [(only key entry held).1]
    decide
  · intro one two first second id left right _ _
    rw [(only one first left).1, (only two second right).1]
  · intro key entry held
    rw [(only key entry held).2]

def redoneTurns : List RecoveryTurn :=
  [{ operation := .edit 1 (noteObservation "storm" true), sync := { draw := fun _ => 0 } },
    { operation := .edit 1 (noteObservation "calm" false), sync := { draw := fun _ => 1 } },
    { before := [.writer {}, .writer {}]
      operation := .edit 1 (noteObservation "storm" true)
      sync := { draw := fun _ => 2 } }]

/-- The redone edit has no copy, and nothing was reported since. -/
theorem redone_edit_is_not_copied :
    Function.Injective wholeDigest.blake3 ∧ Starting noteDesk ∧
      Run.Along turn (fun desk turn => FreshDraws (desk.operated turn) turn.sync) noteDesk
        redoneTurns ∧
      ¬ Run.Along turn (fun desk turn => Covered (desk.turn turn) ∧ Withdrew desk turn) noteDesk
        redoneTurns := by
  refine ⟨fun _ _ same => same, noteDesk_starting,
    ⟨by decide, by decide, by decide, trivial⟩, ?_⟩
  rintro ⟨_, _, ⟨last, _⟩, _⟩
  have covered : Covered (redoneTurns.foldl turn noteDesk) := last
  have open' : ((redoneTurns.foldl turn noteDesk).docs[1]?).any
      (fun entry => entry.needsCopy && entry.recoveryId == some 0) = true := by decide
  have empty : ((redoneTurns.foldl turn noteDesk).recovery.deferred[(0 : RecoveryId)]?.isNone &&
      (redoneTurns.foldl turn noteDesk).recovery.pending[(0 : RecoveryId)]?.isNone &&
      (redoneTurns.foldl turn noteDesk).recovery.stored[(0 : RecoveryId)]?.isNone &&
      (redoneTurns.foldl turn noteDesk).recovery.queue.isEmpty) = true := by decide
  have quiet : reportedSince 1 (redoneTurns.foldl turn noteDesk).log = false := by decide
  rcases (Option.any_eq_true _ _).mp open' with ⟨entry, held, shape⟩
  simp only [Bool.and_eq_true, beq_iff_eq] at shape
  simp only [Bool.and_eq_true, Option.isNone_iff_eq_none, List.isEmpty_iff] at empty
  rcases empty with ⟨⟨⟨deferred, pending⟩, stored⟩, queue⟩
  rcases covered 1 entry held shape.1 with ⟨record, copied, onItsWay⟩ | reported
  · have zero : record.id = 0 := Option.some.inj (copied.1.symm.trans shape.2)
    rw [OnItsWay, zero, deferred, pending, stored, queue] at onItsWay
    simp [edits] at onItsWay
  · rw [quiet] at reported
    cases reported

def savedTurns : List RecoveryTurn :=
  [{ operation := .edit 1 (noteObservation "storm" true), sync := { draw := fun _ => 0 } },
    { operation := .save 1 (some (noteObservation "storm" false)) { steps := [{}, {}] }
      sync := { draw := fun _ => 1 } }]

theorem recovery_copies_hold_savedTurns :
    Run.Along turn (fun desk turn => Covered (desk.turn turn) ∧ Withdrew desk turn) noteDesk
      savedTurns :=
  recovery_copies_hold (fun _ _ same => same) noteDesk noteDesk_starting savedTurns
    ⟨by decide, by decide, trivial⟩

end Runs

end DesktopRecovery

end KnotEditor.Desktop
