import KnotEditor.Desktop.RecoveryInvariant

/-! The steps of a sync: what is decided, what is cleared, what is offered and what is remembered of
it. Each keeps the invariant, and after the offers every copy that is needed is held. -/

namespace KnotEditor.Desktop

open KeyedCollections WriteBehind

namespace DesktopRecovery

variable {host : RecoveryDigest} {accepted : List (Offer host)} {failed : List RecoveryId}
  {desk : DesktopRecovery host} {schedule : SyncSchedule} {key : DocKey}
  {entry : DocumentEntry host}

section Decisions

theorem decision_offer {id : RecoveryId} {fingerprint : host.Digest} {record : RecoveryRecord}
    (offers : desk.decision schedule key entry = .offer id fingerprint record) :
    entry.unsaved = true ∧ id = entry.recoveryId.getD (schedule.draw key) ∧
      fingerprint = entry.fingerprint (decide (desk.focused = some key)) ∧
      record = entry.recoveryRecord id (decide (desk.focused = some key))
        desk.recovery.sessionId := by
  rw [decision] at offers
  by_cases unsaved : entry.unsaved = true
  · simp only [unsaved, Bool.not_true, Bool.false_eq_true, if_false] at offers
    split at offers
    · cases offers
    · split at offers
      · cases offers
      · split at offers
        · cases offers
        · cases offers
          exact ⟨unsaved, rfl, rfl, rfl⟩
  · simp only [unsaved, Bool.not_false, if_true] at offers
    split at offers <;> cases offers

theorem decision_resolve (resolves : desk.decision schedule key entry = .resolve) :
    entry.unsaved = false := by
  rw [decision] at resolves
  by_cases unsaved : entry.unsaved = true
  · simp only [unsaved, Bool.not_true, Bool.false_eq_true, if_false] at resolves
    split at resolves
    · cases resolves
    · split at resolves
      · cases resolves
      · split at resolves <;> cases resolves
  · exact Bool.not_eq_true _ ▸ unsaved

theorem decision_of_needsCopy (needs : entry.needsCopy = true) :
    (desk.decision schedule key entry = .keep ∧ entry.recoveryFingerprint =
      some (entry.fingerprint (decide (desk.focused = some key)))) ∨
    ∃ id fingerprint record, desk.decision schedule key entry = .offer id fingerprint record := by
  simp only [DocumentEntry.needsCopy, Bool.and_eq_true] at needs
  rw [decision]
  simp only [needs, Bool.not_true, Bool.false_eq_true, if_false]
  split
  · rename_i same
    exact Or.inl ⟨rfl, same⟩
  · exact Or.inr ⟨_, _, _, rfl⟩

theorem assign_kept (decision : SyncDecision host) (entry : DocumentEntry host) :
    (assign decision entry).observation = entry.observation ∧
      (assign decision entry).recoveryCandidate = entry.recoveryCandidate ∧
      (assign decision entry).recoveryFingerprint = entry.recoveryFingerprint := by
  cases decision <;> exact ⟨rfl, rfl, rfl⟩

theorem assign_id (desk : DesktopRecovery host) (schedule : SyncSchedule) (key : DocKey)
    (entry : DocumentEntry host) :
    (assign (desk.decision schedule key entry) entry).recoveryId = entry.recoveryId ∨
      entry.recoveryId = none ∧ (assign (desk.decision schedule key entry) entry).recoveryId =
        some (schedule.draw key) := by
  cases decided : desk.decision schedule key entry with
  | keep => exact Or.inl rfl
  | resolve => exact Or.inl rfl
  | oversized _ => exact Or.inl rfl
  | offer id fingerprint record =>
    rw [(decision_offer decided).2.1]
    cases known : entry.recoveryId with
    | none => exact Or.inr ⟨rfl, rfl⟩
    | some old => exact Or.inl rfl

end Decisions

section Observing

def assigned (desk : DesktopRecovery host) (schedule : SyncSchedule) : DesktopRecovery host :=
  { desk with
    docs := desk.docs.map fun key entry => assign (desk.decision schedule key entry) entry }

theorem held_of_assigned (held : (desk.assigned schedule).docs[key]? = some entry) :
    ∃ was, desk.docs[key]? = some was ∧
      entry = assign (desk.decision schedule key was) was := by
  rw [assigned, Std.ExtTreeMap.getElem?_map, Option.map_eq_some_iff] at held
  rcases held with ⟨was, before, rfl⟩
  exact ⟨was, before, rfl⟩

theorem assigned_holder {id : RecoveryId}
    (held : (desk.assigned schedule).docs[key]? = some entry) (known : entry.recoveryId = some id) :
    (∃ was, desk.docs[key]? = some was ∧ was.recoveryId = some id) ∨
      key ∈ desk.docs ∧ id = schedule.draw key := by
  rcases held_of_assigned held with ⟨was, before, rfl⟩
  rcases assign_id desk schedule key was with same | ⟨_, drawn⟩
  · exact Or.inl ⟨was, before, same ▸ known⟩
  · exact Or.inr ⟨Std.ExtTreeMap.mem_iff_isSome_getElem?.mpr (before ▸ rfl),
      Option.some.inj (known.symm.trans drawn)⟩

theorem Sound.assigned (sound : Sound [] failed desk) (fresh : FreshDraws desk schedule) :
    Sound [] failed (desk.assigned schedule) where
  orderly := sound.orderly
  keys := by
    intro key entry held
    rcases held_of_assigned held with ⟨was, before, _⟩
    exact sound.keys key was before
  distinct := by
    intro one two first second id left right known same
    rcases assigned_holder left known with ⟨was, before, knew⟩ | ⟨here, drawn⟩
    · rcases assigned_holder right same with ⟨were, earlier, had⟩ | ⟨there, rfl⟩
      · exact sound.distinct one two was were id before earlier knew had
      · exact absurd knew (fresh.undrawn two there one was before)
    · subst drawn
      rcases assigned_holder right same with ⟨were, earlier, had⟩ | ⟨there, again⟩
      · exact absurd had (fresh.undrawn one here two were earlier)
      · exact fresh.distinct one here two there again
  named := by
    intro key entry held remembered
    rcases held_of_assigned held with ⟨was, before, rfl⟩
    rw [(assign_kept _ was).2.2] at remembered
    have known := sound.named key was before remembered
    rcases assign_id desk schedule key was with same | ⟨none, _⟩
    · rw [same]
      exact known
    · rw [none] at known
      cases known
  backed := by
    intro key entry held others id fingerprint known remembered
    rcases held_of_assigned held with ⟨was, before, rfl⟩
    rw [(assign_kept _ was).2.2] at remembered
    refine sound.backed key was before others id fingerprint ?_ remembered
    rcases assign_id desk schedule key was with same | ⟨none, _⟩
    · exact same ▸ known
    · have named := sound.named key was before (by rw [remembered]; rfl)
      rw [none] at named
      cases named
  accepted := by simp
  logged := by
    intro key id member
    refine ⟨(sound.logged key id member).1, fun entry held => ?_⟩
    rcases held_of_assigned held with ⟨was, before, rfl⟩
    rcases (sound.logged key id member).2 was before with known | ⟨absent, unheld⟩
    · refine Or.inl ?_
      rcases assign_id desk schedule key was with same | ⟨none, _⟩
      · exact same.trans known
      · rw [none] at known
        cases known
    · refine Or.inr ⟨absent, fun other found holds knows => ?_⟩
      rcases assigned_holder holds knows with ⟨were, earlier, had⟩ | ⟨here, rfl⟩
      · exact unheld other were earlier had
      · exact fresh.unlogged other here _ member rfl

theorem reports_kept (failed : List RecoveryId) (items : List (DocKey × SyncDecision host))
    (desk : DesktopRecovery host) :
    (items.foldl reportOversized desk).docs = desk.docs ∧
      (items.foldl reportOversized desk).recovery = desk.recovery ∧
      (Sound [] failed desk → Sound [] failed (items.foldl reportOversized desk)) := by
  induction items generalizing desk with
  | nil => exact ⟨rfl, rfl, fun sound => sound⟩
  | cons item rest ih =>
    rcases ih (reportOversized desk item) with ⟨docs, recovery, sound⟩
    rw [List.foldl_cons]
    rcases item with ⟨key, decision⟩
    cases decision with
    | oversized message =>
      exact ⟨docs, recovery, fun before => sound (before.reportError message)⟩
    | keep => exact ⟨docs, recovery, sound⟩
    | resolve => exact ⟨docs, recovery, sound⟩
    | offer id fingerprint record => exact ⟨docs, recovery, sound⟩

theorem observeAll_kept (desk : DesktopRecovery host) (schedule : SyncSchedule) :
    (desk.observeAll schedule).docs = (desk.assigned schedule).docs ∧
      (desk.observeAll schedule).recovery = desk.recovery :=
  ⟨(reports_kept [] _ _).1, (reports_kept [] _ _).2.1⟩

theorem Sound.observeAll (sound : Sound [] failed desk) (fresh : FreshDraws desk schedule) :
    Sound [] failed (desk.observeAll schedule) :=
  (reports_kept failed _ _).2.2 (sound.assigned fresh)

end Observing

def Held (recovery : RecoveryRuntime) (id : RecoveryId) (observation : RecoveryObservation) :
    Prop :=
  (∃ record, recovery.latest id = some record ∧ record.sourceText = observation.source ∧
      record.selection = observation.selection) ∨
    recovery.Failed id ∨ recovery.localError.isSome = true

theorem Held.moved {before after : RecoveryRuntime} {id : RecoveryId}
    {observation : RecoveryObservation} (holds : Held before id observation)
    (kept : ∀ record, before.latest id = some record →
      after.latest id = some record ∨ after.Failed id)
    (failing : before.Failed id → after.Failed id)
    (told : before.localError.isSome = true → after.localError.isSome = true) :
    Held after id observation := by
  rcases holds with ⟨record, held, text, selection⟩ | failed | error
  · rcases kept record held with still | lost
    · exact Or.inl ⟨record, still, text, selection⟩
    · exact Or.inr (Or.inl lost)
  · exact Or.inr (Or.inl (failing failed))
  · exact Or.inr (Or.inr (told error))

theorem Held.carried {before after : RecoveryRuntime} {id : RecoveryId}
    {observation : RecoveryObservation} (holds : Held before id observation)
    (carried : before.Carried after) : Held after id observation :=
  holds.moved (carried.kept id) (carried.failed id) (by rw [carried.localError]; exact fun told => told)

section Clearing

theorem clearRecoveryFor_other (orderly : desk.recovery.Orderly) (cleared : DocKey) (wait : Wait)
    (differs : cleared ≠ key) :
    (desk.clearRecoveryFor cleared wait).docs[key]? = desk.docs[key]? := by
  rcases clearRecoveryFor_cases orderly cleared wait with
    ⟨_, same⟩ | ⟨_, _, _, _, _, _, _, ⟨_, done⟩ | ⟨_, failing⟩⟩
  · rw [same]
  · rw [done]
    exact getElem?_modify_of_ne _ differs _
  · rw [failing]
    rfl

theorem clearRecoveryFor_observation (orderly : desk.recovery.Orderly) (cleared : DocKey)
    (wait : Wait) (held : (desk.clearRecoveryFor cleared wait).docs[key]? = some entry) :
    ∃ was, desk.docs[key]? = some was ∧ entry.observation = was.observation ∧
      (entry.recoveryCandidate = true → was.recoveryCandidate = true) := by
  rcases clearRecoveryFor_cases orderly cleared wait with
    ⟨_, same⟩ | ⟨_, _, _, _, _, _, _, ⟨_, done⟩ | ⟨_, failing⟩⟩
  · rw [same] at held
    exact ⟨entry, held, rfl, fun candidate => candidate⟩
  · rw [done] at held
    rcases held_of_modify _ _ _ held with ⟨was, before, rfl⟩
    refine ⟨was, before, ?_⟩
    split
    · exact ⟨rfl, by intros; contradiction⟩
    · exact ⟨rfl, fun candidate => candidate⟩
  · rw [failing] at held
    exact ⟨entry, held, rfl, fun candidate => candidate⟩

theorem Held.clearRecoveryFor {id : RecoveryId} {observation : RecoveryObservation}
    (holds : Held desk.recovery id observation) (sound : Sound [] failed desk)
    (held : desk.docs[key]? = some entry) (known : entry.recoveryId = some id) (cleared : DocKey)
    (wait : Wait) (differs : cleared ≠ key) :
    Held (desk.clearRecoveryFor cleared wait).recovery id observation := by
  rcases clearRecoveryFor_cases sound.orderly cleared wait with
    ⟨_, same⟩ | ⟨found, other, recovery, result, holding, knows, cleared, outcome⟩
  · rw [same]
    exact holds
  · have distinct : other ≠ id := by
      rintro rfl
      exact differs (sound.distinct _ _ found entry other holding held knows known)
    have moved : Held recovery id observation :=
      holds.moved (cleared.kept id distinct) (cleared.failed id)
        (by rw [cleared.localError]; exact fun told => told)
    rcases outcome with ⟨_, done⟩ | ⟨_, failing⟩
    · rw [done]
      exact moved
    · rw [failing]
      exact moved

theorem Sound.clearAll (sound : Sound [] failed desk) (schedule : SyncSchedule)
    (keys : List DocKey) : Sound [] failed (desk.clearAll schedule keys) :=
  (withdrawn_clearEach schedule.clear keys sound).sound

theorem clearAll_other (sound : Sound [] failed desk) (schedule : SyncSchedule)
    (keys : List DocKey) (unlisted : key ∉ keys) :
    (desk.clearAll schedule keys).docs[key]? = desk.docs[key]? ∧
      ∀ entry id observation, desk.docs[key]? = some entry → entry.recoveryId = some id →
        Held desk.recovery id observation →
          Held (desk.clearAll schedule keys).recovery id observation := by
  induction keys generalizing desk with
  | nil => exact ⟨rfl, fun _ _ _ _ _ holds => holds⟩
  | cons first rest ih =>
    have differs : first ≠ key := by
      rintro rfl
      exact unlisted List.mem_cons_self
    have docs := clearRecoveryFor_other sound.orderly first (schedule.clear first) differs
    rcases ih (sound.clearRecoveryFor first (schedule.clear first))
      (fun later => unlisted (List.mem_cons_of_mem _ later)) with ⟨same, holding⟩
    refine ⟨same.trans docs, ?_⟩
    intro entry id observation held known holds
    exact holding entry id observation (docs.trans held) known
      (holds.clearRecoveryFor sound held known first _ differs)

theorem clearAll_observation (sound : Sound [] failed desk) (schedule : SyncSchedule)
    (keys : List DocKey) (held : (desk.clearAll schedule keys).docs[key]? = some entry) :
    ∃ was, desk.docs[key]? = some was ∧ entry.observation = was.observation ∧
      (entry.recoveryCandidate = true → was.recoveryCandidate = true) := by
  induction keys generalizing desk with
  | nil => exact ⟨entry, held, rfl, fun candidate => candidate⟩
  | cons first rest ih =>
    rcases ih (sound.clearRecoveryFor first (schedule.clear first)) held with
      ⟨middle, between, text, candidate⟩
    rcases clearRecoveryFor_observation sound.orderly first _ between with
      ⟨was, before, same, candidacy⟩
    exact ⟨was, before, text.trans same, fun is => candidacy (candidate is)⟩

end Clearing

section Offering

structure Placed (docs : Std.ExtTreeMap DocKey (DocumentEntry host)) (offer : Offer host) :
    Prop where
  held : ∃ entry, docs[offer.key]? = some entry ∧ entry.recoveryId = some offer.record.id
  fingerprint : ∃ focused, offer.fingerprint = host.blake3
    (fingerprintBytes offer.record.sourceText offer.record.selection focused)
  anchor : offer.record.selection.anchor ≤ usizeMax
  head : offer.record.selection.head ≤ usizeMax

structure Copied (desk : DesktopRecovery host) (recovery : RecoveryRuntime) (offer : Offer host)
    (next : RecoveryRuntime × List (Offer host)) (accepted : List (Offer host)) : Prop where
  sound : Sound next.2 [] { desk with recovery := next.1 }
  keys : ∀ later ∈ next.2, later ∈ accepted ∨ later = offer
  own : ∀ observation : RecoveryObservation, offer.record.sourceText = observation.source →
    offer.record.selection = observation.selection → Held next.1 offer.record.id observation
  others : ∀ id, offer.record.id ≠ id → ∀ observation, Held recovery id observation →
    Held next.1 id observation
  absent : ∀ id, offer.record.id ≠ id → recovery.Absent id → next.1.Absent id

variable {recovery : RecoveryRuntime} {offer : Offer host}

theorem Placed.apart {docs : Std.ExtTreeMap DocKey (DocumentEntry host)}
    (placed : Placed docs offer)
    (distinct : ∀ (one two : DocKey) (first second : DocumentEntry host) id, docs[one]? = some first →
      docs[two]? = some second → first.recoveryId = some id → second.recoveryId = some id →
        one = two)
    (held : docs[key]? = some entry) (differs : offer.key ≠ key) {id : RecoveryId}
    (known : entry.recoveryId = some id) : offer.record.id ≠ id := by
  rintro rfl
  rcases placed.held with ⟨owner, holding, knows⟩
  exact differs (distinct offer.key key owner entry offer.record.id holding held knows known)

theorem Placed.retired (placed : Placed desk.docs offer) {id : RecoveryId}
    (retired : desk.Retired id) {taken : Bool}
    (offered : desk.recovery.Offered recovery offer.record taken) :
    Retired { desk with recovery } id := by
  refine ⟨offered.absent id ?_ retired.absent, retired.unheld⟩
  rintro rfl
  rcases placed.held with ⟨owner, holding, knows⟩
  exact retired.unheld offer.key owner holding knows

theorem Sound.offered (sound : Sound accepted [] desk) (placed : Placed desk.docs offer)
    (unlisted : ∀ earlier ∈ accepted, earlier.key ≠ offer.key)
    (offered : desk.recovery.Offered recovery offer.record true) :
    Sound (accepted ++ [offer]) [] { desk with recovery } := by
  have failing := offered.failed
  have kept : ∀ id, offer.record.id ≠ id → ∀ record, desk.recovery.latest id = some record →
      recovery.latest id = some record ∨ recovery.Failed id :=
    fun id differs record holds => Or.inl ((offered.others id differs).trans holds)
  refine ⟨offered.orderly, sound.keys, sound.distinct, sound.named, ?_, ?_, ?_⟩
  · intro key entry held others id fingerprint known remembered
    have apart := placed.apart sound.distinct held (others offer (by simp)) known
    refine (sound.backed key entry held
      (fun earlier member => others earlier (List.mem_append_left _ member)) id fingerprint known
      remembered).imp_right ?_
    exact fun backed => backed.mono (kept id apart) (failing id)
  · intro later member
    rcases List.mem_append.mp member with early | last
    · have earlier := sound.accepted later early
      rcases earlier.held with ⟨entry, held, known⟩
      have apart := placed.apart sound.distinct held (Ne.symm (unlisted later early)) known
      exact ⟨⟨entry, held, known⟩, earlier.backed.mono (kept _ apart) (failing _)⟩
    · cases List.mem_singleton.mp last
      rcases placed.fingerprint with ⟨focused, hashed⟩
      exact ⟨placed.held, Or.inl ⟨offer.record, focused, offered.latest rfl, hashed, placed.anchor,
        placed.head⟩⟩
  · exact fun key id member => ⟨(sound.logged key id member).1, fun entry held =>
      ((sound.logged key id member).2 entry held).imp_right (placed.retired · offered)⟩

theorem Sound.refused (sound : Sound accepted [] desk) (placed : Placed desk.docs offer)
    (latest : ∀ id, recovery.latest id = desk.recovery.latest id)
    (offered : desk.recovery.Offered recovery offer.record false) :
    Sound accepted [] { desk with recovery } := by
  have failing := offered.failed
  have kept : ∀ id record, desk.recovery.latest id = some record →
      recovery.latest id = some record ∨ recovery.Failed id :=
    fun id record holds => Or.inl ((latest id).trans holds)
  refine ⟨offered.orderly, sound.keys, sound.distinct, sound.named, ?_, ?_, ?_⟩
  · intro key entry held others id fingerprint known remembered
    exact (sound.backed key entry held others id fingerprint known remembered).imp_right
      fun backed => backed.mono (kept id) (failing id)
  · exact fun later member => ⟨(sound.accepted later member).held,
      (sound.accepted later member).backed.mono (kept _) (failing _)⟩
  · exact fun key id member => ⟨(sound.logged key id member).1, fun entry held =>
      ((sound.logged key id member).2 entry held).imp_right (placed.retired · offered)⟩

theorem offerCopy_copied (sound : Sound accepted [] { desk with recovery })
    (placed : Placed desk.docs offer) (unlisted : ∀ earlier ∈ accepted, earlier.key ≠ offer.key)
    (schedule : SyncSchedule) :
    Copied desk recovery offer (offerCopy schedule (recovery, accepted) offer) accepted := by
  have worked := RecoveryRuntime.work_worked sound.orderly (schedule.offer offer.key)
  have moved := sound.carried worked.toCarried
  have offered := RecoveryRuntime.offer_offered worked.orderly offer.record
  rw [offerCopy]
  rcases outcome : (recovery.work (schedule.offer offer.key)).offer offer.record with
    ⟨taken, next⟩
  rw [outcome] at offered
  have others : ∀ id, offer.record.id ≠ id → ∀ observation, Held recovery id observation →
      Held next id observation := by
    intro id differs observation holds
    refine (holds.carried worked.toCarried).moved ?_ (offered.failed id) ?_
    · exact fun record held => Or.inl ((offered.others id differs).trans held)
    · intro error
      rcases offered.told with ⟨_, same⟩ | ⟨_, some, _⟩
      · rw [same]
        exact error
      · exact some
  have absent : ∀ id, offer.record.id ≠ id → recovery.Absent id → next.Absent id :=
    fun id differs was => offered.absent id differs (worked.absent id was)
  cases taken with
  | true =>
    refine ⟨moved.offered placed unlisted offered, ?_, ?_, others, absent⟩
    · intro later member
      simpa using member
    · exact fun observation text selection =>
        Or.inl ⟨offer.record, offered.latest rfl, text, selection⟩
  | false =>
    rcases offered.told with ⟨taken, _⟩ | ⟨_, error, latest⟩
    · cases taken
    · exact ⟨moved.refused placed latest offered, fun later member => Or.inl member,
        fun _ _ _ => Or.inr (Or.inr error), others, absent⟩

structure AllCopied (desk : DesktopRecovery host) (recovery : RecoveryRuntime)
    (offers : List (Offer host)) (next : RecoveryRuntime × List (Offer host)) : Prop where
  sound : Sound next.2 [] { desk with recovery := next.1 }
  own : ∀ offer ∈ offers, ∀ observation : RecoveryObservation,
    offer.record.sourceText = observation.source →
      offer.record.selection = observation.selection → Held next.1 offer.record.id observation
  others : ∀ id, (∀ offer ∈ offers, offer.record.id ≠ id) → ∀ observation,
    Held recovery id observation → Held next.1 id observation
  absent : ∀ id, (∀ offer ∈ offers, offer.record.id ≠ id) → recovery.Absent id →
    next.1.Absent id

theorem offers_allCopied (schedule : SyncSchedule) (offers : List (Offer host)) :
    ∀ (recovery : RecoveryRuntime) (accepted : List (Offer host)),
      Sound accepted [] { desk with recovery } →
        (∀ offer ∈ offers, Placed desk.docs offer) →
          (∀ earlier ∈ accepted, ∀ offer ∈ offers, earlier.key ≠ offer.key) →
            offers.Pairwise (fun one two => one.key ≠ two.key) →
              AllCopied desk recovery offers
                (offers.foldl (offerCopy schedule) (recovery, accepted)) := by
  induction offers with
  | nil =>
    intro recovery accepted sound _ _ _
    exact ⟨sound, by simp, fun _ _ _ holds => holds, fun _ _ absent => absent⟩
  | cons offer rest ih =>
    intro recovery accepted sound placed unlisted apart
    rcases List.pairwise_cons.mp apart with ⟨first, later⟩
    have here := placed offer List.mem_cons_self
    have copied := offerCopy_copied sound here
      (fun earlier member => unlisted earlier member offer List.mem_cons_self) schedule
    have behind : ∀ other ∈ rest, other.record.id ≠ offer.record.id := by
      intro other member
      rcases (placed other (List.mem_cons_of_mem _ member)).held with ⟨entry, held, known⟩
      exact Ne.symm (here.apart sound.distinct held (first other member) known)
    have whole := ih _ _ copied.sound
      (fun other member => placed other (List.mem_cons_of_mem _ member)) (by
        intro earlier known other member
        rcases copied.keys earlier known with before | rfl
        · exact unlisted earlier before other (List.mem_cons_of_mem _ member)
        · exact first other member) later
    refine ⟨whole.sound, ?_, ?_, ?_⟩
    · intro found member observation text selection
      rcases List.mem_cons.mp member with rfl | inner
      · exact whole.others _ behind observation (copied.own observation text selection)
      · exact whole.own found inner observation text selection
    · intro id differs observation holds
      exact whole.others id (fun other member => differs other (List.mem_cons_of_mem _ member))
        observation (copied.others id (differs offer List.mem_cons_self) observation holds)
    · intro id differs absent
      exact whole.absent id (fun other member => differs other (List.mem_cons_of_mem _ member))
        (copied.absent id (differs offer List.mem_cons_self) absent)

end Offering

section Remembering

theorem accept_alike (offer : Offer host) (held : (desk.accept offer).docs[key]? = some entry) :
    ∃ was, desk.docs[key]? = some was ∧ Alike was entry := by
  rcases held_of_modify _ _ _ held with ⟨was, before, rfl⟩
  refine ⟨was, before, ?_⟩
  split <;> exact ⟨rfl, rfl, rfl⟩

theorem accepts_alike (accepted : List (Offer host))
    (held : (accepted.foldl accept desk).docs[key]? = some entry) :
    ∃ was, desk.docs[key]? = some was ∧ Alike was entry := by
  induction accepted generalizing desk with
  | nil => exact ⟨entry, held, rfl, rfl, rfl⟩
  | cons offer rest ih =>
    rcases ih held with ⟨middle, between, later⟩
    rcases accept_alike offer between with ⟨was, before, earlier⟩
    exact ⟨was, before, later.observation.trans earlier.observation,
      later.recoveryCandidate.trans earlier.recoveryCandidate,
      later.recoveryId.trans earlier.recoveryId⟩

theorem Sound.accept {offer : Offer host} (sound : Sound (offer :: accepted) failed desk) :
    Sound accepted failed (desk.accept offer) := by
  rcases sound.accepted offer List.mem_cons_self with ⟨⟨owner, holding, knows⟩, standing⟩
  refine ⟨sound.orderly, sound.keyed _ _, ?_, ?_, ?_, ?_, ?_⟩
  · intro one two first second id left right known same
    rcases accept_alike offer left with ⟨was, before, alike⟩
    rcases accept_alike offer right with ⟨were, earlier, likewise⟩
    exact sound.distinct one two was were id before earlier (alike.recoveryId ▸ known)
      (likewise.recoveryId ▸ same)
  · intro key entry held remembered
    rcases held_of_modify _ _ _ held with ⟨was, before, rfl⟩
    by_cases same : offer.key = key
    · subst same
      rw [holding] at before
      cases before
      rw [if_pos rfl]
      exact knows ▸ rfl
    · rw [if_neg same] at remembered ⊢
      exact sound.named key was before remembered
  · intro key entry held others id fingerprint known remembered
    rcases held_of_modify _ _ _ held with ⟨was, before, rfl⟩
    by_cases same : offer.key = key
    · subst same
      rw [holding] at before
      cases before
      rw [if_pos rfl] at known remembered
      cases knows.symm.trans known
      cases remembered
      exact Or.inr standing
    · rw [if_neg same] at known remembered
      refine (sound.backed key was before ?_ id fingerprint known remembered).imp_left ?_
      · intro other member
        rcases List.mem_cons.mp member with rfl | inner
        · exact same
        · exact others other inner
      · intro removed
        refine removedSince_later removed ?_
        rintro offered
        exact same (RecoveryEvent.offered.inj offered).1
  · intro other member
    have before := sound.accepted other (List.mem_cons_of_mem _ member)
    rcases before.held with ⟨entry, held, known⟩
    refine ⟨?_, before.backed⟩
    by_cases same : offer.key = other.key
    · rw [← same] at held ⊢
      refine ⟨{ entry with recoveryFingerprint := some offer.fingerprint }, ?_, known⟩
      rw [DesktopRecovery.accept, Std.ExtTreeMap.getElem?_modify_self, held, Option.map_some]
    · exact ⟨entry, (getElem?_modify_of_ne _ same _).trans held, known⟩
  · intro key id member
    rcases List.mem_append.mp member with early | last
    · refine ⟨(sound.logged key id early).1, fun entry held => ?_⟩
      rcases accept_alike offer held with ⟨was, before, alike⟩
      rw [alike.recoveryId]
      refine ((sound.logged key id early).2 was before).imp_right ?_
      rintro ⟨absent, unheld⟩
      refine ⟨absent, fun other found holds has => ?_⟩
      rcases accept_alike offer holds with ⟨were, earlier, likewise⟩
      exact unheld other were earlier (likewise.recoveryId ▸ has)
    · cases List.mem_singleton.mp last
      refine ⟨sound.keys _ owner holding, fun entry held => ?_⟩
      rcases accept_alike offer held with ⟨was, before, alike⟩
      rw [holding] at before
      cases before
      exact Or.inl (alike.recoveryId.trans knows)

theorem Sound.accepts (sound : Sound accepted failed desk) :
    Sound [] failed (accepted.foldl DesktopRecovery.accept desk) := by
  induction accepted generalizing desk with
  | nil => exact sound
  | cons offer rest ih => exact ih sound.accept

theorem accepts_recovery (accepted : List (Offer host)) :
    (accepted.foldl accept desk).recovery = desk.recovery := by
  induction accepted generalizing desk with
  | nil => rfl
  | cons offer rest ih => exact ih

end Remembering

end DesktopRecovery

end KnotEditor.Desktop
