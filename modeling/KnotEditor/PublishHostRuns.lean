import KnotEditor.PublishEligibility
import KnotEditor.PublishHost

/-! Every run of a publishing host: what a session may write, and how many hold a slot. -/

namespace KnotEditor

variable {Ledger Lapse : Type} {service : PublishService} {host : KnotPublishHost Ledger Lapse}
variable {session : PublishSession Ledger Lapse} {authority : RetainedAuthority Ledger Lapse}

/-- A retained chain covers what its scope names while it is in force, and once it is in force it
stays so until it lapses. -/
def RetainedAuthority.Scoped (authority : RetainedAuthority Ledger Lapse) : Prop :=
  ∃ (scope : String → String → Bool) (inForce : UInt64 → Bool),
    (∀ path action nowMs,
      authority.covers path action nowMs = (scope path action && inForce nowMs)) ∧
    ∀ ledger first later, first ≤ later → inForce first = true →
      authority.lapse ledger later = none → inForce later = true

def RetainedAuthority.reads (authority : RetainedAuthority Ledger Lapse) (nowMs : UInt64)
    (publication : PublicationId) : Bool :=
  authority.covers (publicationPath publication) knotPublishReadAction nowMs

theorem reads_later (chain : authority.Scoped) {ledger : Ledger} {first later : UInt64}
    {publication : PublicationId} (order : first ≤ later)
    (covered : authority.reads first publication = true)
    (unlapsed : authority.lapse ledger later = none) :
    authority.reads later publication = true := by
  rcases chain with ⟨scope, inForce, covers, stays⟩
  rw [RetainedAuthority.reads, covers, Bool.and_eq_true] at covered ⊢
  exact ⟨covered.1, stays ledger first later order covered.2 unlapsed⟩

/-- The body of a published document was read, at some moment, as a source of this id. -/
def MaterializedFrom (host : SyncHost) (source : String) (published : KnotPublishedDocument) :
    Prop :=
  ∃ store vault document,
    published = KnotPublishedDocument.ofDocument host.merge published.publication document
      published.operation ∧
    ((∃ publication : KnotPublication, publication.sourceDocument = source ∧
        KnotPublishCatalog.currentEligible host store vault publication =
          .ok (some (document, published.operation))) ∨
      store.documentVersion host vault source published.operation = .ok (some document))

section Draft

/-- A draft that carries a document was covered at an earlier moment, and read as the source that
its catalog selected. -/
structure Drafted (service : PublishService) (authority : RetainedAuthority Ledger Lapse)
    (nowMs : UInt64) (draft : PublishDraft) : Prop where
  document : ∀ published, draft.response = .document published →
    (∃ first ≤ nowMs, authority.reads first published.publication = true) ∧
      draft.request.publication = some published.publication ∧
        ∃ source, draft.selectedSource = some source ∧
          MaterializedFrom service.host source published
  catalog : ∀ publications, draft.response = .catalog publications → draft.request = .list

theorem Drafted.later {first later : UInt64} {draft : PublishDraft}
    (drafted : Drafted service authority first draft) (order : first ≤ later) :
    Drafted service authority later draft := by
  refine ⟨?_, drafted.catalog⟩
  intro published carried
  rcases drafted.document published carried with ⟨⟨covering, early, covered⟩, asked, read⟩
  exact ⟨⟨covering, UInt64.le_trans early order, covered⟩, asked, read⟩

variable {catalog : KnotPublishCatalog} {ledger : Ledger} {nowMs : UInt64}
variable {store : KnotSyncStore} {vault : SyncVault} {id : PublicationId}
variable {published : KnotPublishedDocument}

theorem reads_of_authorized {publication : KnotPublication}
    (authorized : catalog.authorizedPublication authority ledger nowMs id = some publication) :
    authority.reads nowMs id = true := by
  rw [KnotPublishCatalog.authorizedPublication] at authorized
  split at authorized
  · exact (Option.filter_eq_some_iff.mp authorized).2
  · cases authorized

theorem reads_of_getCurrent
    (read : catalog.getCurrent service.host store vault authority ledger nowMs id =
      .ok (.document published)) : authority.reads nowMs id = true := by
  rw [KnotPublishCatalog.getCurrent] at read
  split at read
  · cases read
  · rename_i publication authorized
    exact reads_of_authorized authorized

theorem reads_of_getVersion {operation : Bytes32}
    (read : catalog.getVersion service.host store vault authority ledger nowMs id operation =
      .ok (.document published)) : authority.reads nowMs id = true := by
  rw [KnotPublishCatalog.getVersion] at read
  split at read
  · cases read
  · rename_i publication authorized
    exact reads_of_authorized authorized

theorem response_eq_document {read : KnotPublishRead}
    (shown : read.response = .document published) : read = .document published := by
  cases read with
  | document other =>
    cases shown
    rfl
  | notAvailable => cases shown

theorem response_ne_catalog (read : KnotPublishRead) (publications : List PublicationId) :
    read.response ≠ .catalog publications := by
  intro shown
  cases read with
  | document other => cases shown
  | notAvailable => cases shown

theorem drafted_sound {meets : ServeMeets} {request : PublishRequest} {draft : PublishDraft}
    (made : drafted service authority meets nowMs ledger catalog request = .ok draft) :
    Drafted service authority nowMs draft := by
  rw [drafted] at made
  cases request with
  | list =>
    cases made
    exact ⟨by intros; contradiction, fun _ _ => rfl⟩
  | getCurrent id =>
    simp only [materialize] at made
    cases read : catalog.getCurrent service.host meets.store meets.vault authority ledger nowMs
        id with
    | error error =>
      rw [read] at made
      cases made
    | ok result =>
      rw [read] at made
      cases made
      refine ⟨?_, fun publications shown => absurd shown (response_ne_catalog result _)⟩
      intro published carried
      rw [response_eq_document carried] at read
      rcases eligible_of_getCurrent read with
        ⟨publication, document, head, selected, eligible, rfl⟩
      refine ⟨⟨nowMs, UInt64.le_refl _, reads_of_getCurrent read⟩, rfl,
        publication.sourceDocument, ?_, meets.store, meets.vault, document, rfl,
        Or.inl ⟨publication, rfl, eligible⟩⟩
      exact congrArg (Option.map KnotPublication.sourceDocument) selected
  | getVersion id operation =>
    simp only [materialize] at made
    cases read : catalog.getVersion service.host meets.store meets.vault authority ledger nowMs
        id operation with
    | error error =>
      rw [read] at made
      cases made
    | ok result =>
      rw [read] at made
      cases made
      refine ⟨?_, fun publications shown => absurd shown (response_ne_catalog result _)⟩
      intro published carried
      rw [response_eq_document carried] at read
      rcases read_of_getVersion read with ⟨publication, document, selected, version, rfl⟩
      refine ⟨⟨nowMs, UInt64.le_refl _, reads_of_getVersion read⟩, rfl,
        publication.sourceDocument, ?_, meets.store, meets.vault, document, rfl,
        Or.inr version⟩
      exact congrArg (Option.map KnotPublication.sourceDocument) selected

end Draft

section Answer

def PublishAnswer.intended (authority : RetainedAuthority Ledger Lapse)
    (answer : PublishAnswer Ledger) : PublishResponse :=
  finalResponse authority answer.ledger answer.catalog answer.nowMs answer.draft

/-- What a written response says holds of the revocations, the catalog and the clock that were read
under the final guards. -/
structure Justified (service : PublishService) (authority : RetainedAuthority Ledger Lapse)
    (answer : PublishAnswer Ledger) : Prop where
  unlapsed : authority.lapse answer.ledger answer.nowMs = none
  document : ∀ published, answer.response = .document published →
    answer.draft.request.publication = some published.publication ∧
      authority.reads answer.nowMs published.publication = true ∧
        ∃ selection, answer.catalog.publications[published.publication]? = some selection ∧
          MaterializedFrom service.host selection.sourceDocument published
  catalog : ∀ publications, answer.response = .catalog publications →
    answer.draft.request = .list ∧
      publications = answer.catalog.publications.keys.filter (authority.reads answer.nowMs)
  whole : ∀ bytes, encodeResponse service.codec service.limits.wire
    (answer.intended authority) = .ok bytes → answer.response = answer.intended authority
  withheld : ∀ error, encodeResponse service.codec service.limits.wire
    (answer.intended authority) = .error error → answer.response = .notAvailable

theorem withinLimits_cases {response written : PublishResponse}
    (fits : withinLimits service response = .ok written) :
    (∃ bytes, encodeResponse service.codec service.limits.wire response = .ok bytes) ∧
        written = response ∨
      (∃ error, encodeResponse service.codec service.limits.wire response = .error error) ∧
        written = .notAvailable := by
  have withheld : (encodeResponse service.codec service.limits.wire .notAvailable).map
      (fun _ => PublishResponse.notAvailable) = .ok written → written = .notAvailable := by
    intro short
    cases encoded : encodeResponse service.codec service.limits.wire .notAvailable with
    | error error =>
      rw [encoded] at short
      cases short
    | ok bytes =>
      rw [encoded] at short
      cases short
      rfl
  rw [withinLimits] at fits
  cases encoded : encodeResponse service.codec service.limits.wire response with
  | ok bytes =>
    rw [encoded] at fits
    cases fits
    exact Or.inl ⟨⟨bytes, rfl⟩, rfl⟩
  | error error =>
    rw [encoded] at fits
    cases error with
    | tooLarge => exact Or.inr ⟨⟨_, rfl⟩, withheld fits⟩
    | responseLimit => exact Or.inr ⟨⟨_, rfl⟩, withheld fits⟩
    | codec => cases fits
    | trailingData => cases fits

theorem finalResponse_document {ledger : Ledger} {catalog : KnotPublishCatalog} {nowMs : UInt64}
    {draft : PublishDraft} {published : KnotPublishedDocument}
    (drafted : Drafted service authority nowMs draft)
    (shown : finalResponse authority ledger catalog nowMs draft = .document published) :
    draft.response = .document published ∧
      ∃ selection, catalog.publications[published.publication]? = some selection ∧
        MaterializedFrom service.host selection.sourceDocument published := by
  rw [finalResponse] at shown
  cases asked : draft.request.publication with
  | none =>
    rw [asked] at shown
    cases shown
  | some publication =>
    rw [asked] at shown
    simp only at shown
    split at shown
    · rename_i selected
      rcases drafted.document published shown with ⟨_, named, source, from_, read⟩
      cases asked.symm.trans named
      cases held : catalog.publications[published.publication]? with
      | none =>
        rw [held] at selected
        cases selected
      | some selection =>
        rw [held, Option.any_some, from_, beq_iff_eq, Option.some.injEq] at selected
        exact ⟨shown, selection, rfl, selected ▸ read⟩
    · cases shown

theorem finalResponse_catalog {ledger : Ledger} {catalog : KnotPublishCatalog} {nowMs : UInt64}
    {draft : PublishDraft} {publications : List PublicationId}
    (drafted : Drafted service authority nowMs draft)
    (unlapsed : authority.lapse ledger nowMs = none)
    (shown : finalResponse authority ledger catalog nowMs draft = .catalog publications) :
    draft.request = .list ∧
      publications = catalog.publications.keys.filter (authority.reads nowMs) := by
  rw [finalResponse] at shown
  cases request : draft.request with
  | list =>
    rw [request] at shown
    cases shown
    rw [KnotPublishCatalog.list, unlapsed]
    exact ⟨rfl, rfl⟩
  | getCurrent publication =>
    rw [request] at shown
    simp only [PublishRequest.publication] at shown
    split at shown
    · cases request.symm.trans (drafted.catalog publications shown)
    · cases shown
  | getVersion publication operation =>
    rw [request] at shown
    simp only [PublishRequest.publication] at shown
    split at shown
    · cases request.symm.trans (drafted.catalog publications shown)
    · cases shown

theorem justified_of_decided {answer : PublishAnswer Ledger} (chain : authority.Scoped)
    (drafted : Drafted service authority answer.nowMs answer.draft)
    (unlapsed : authority.lapse answer.ledger answer.nowMs = none)
    (fits : withinLimits service (answer.intended authority) = .ok answer.response) :
    Justified service authority answer := by
  have cases_ := withinLimits_cases fits
  have whole : answer.response ≠ .notAvailable → answer.response = answer.intended authority := by
    intro carried
    rcases cases_ with ⟨_, same⟩ | ⟨_, withheld⟩
    · exact same
    · exact absurd withheld carried
  refine ⟨unlapsed, ?_, ?_, ?_, ?_⟩
  · intro published written
    have shown := whole (by rw [written]; intro same; cases same)
    rcases finalResponse_document drafted (shown.symm.trans written) with ⟨carried, selected⟩
    rcases drafted.document published carried with ⟨⟨first, order, covered⟩, asked, _⟩
    exact ⟨asked, reads_later chain order covered unlapsed, selected⟩
  · intro publications written
    have shown := whole (by rw [written]; intro same; cases same)
    exact finalResponse_catalog drafted unlapsed (shown.symm.trans written)
  · intro bytes encoded
    rcases cases_ with ⟨_, same⟩ | ⟨⟨error, refused⟩, _⟩
    · exact same
    · cases encoded.symm.trans refused
  · intro error refused
    rcases cases_ with ⟨⟨bytes, encoded⟩, _⟩ | ⟨_, withheld⟩
    · cases encoded.symm.trans refused
    · exact withheld

end Answer

section Sessions

structure Concluded (service : PublishService) (authority : RetainedAuthority Ledger Lapse)
    (outcome : KnotPublishServeOutcome Lapse) (answer : Option (PublishAnswer Ledger)) : Prop where
  justified : ∀ written, answer = some written → Justified service authority written
  responded : outcome = .responded → answer.isSome = true
  lapsed : ∀ lapse, outcome = .lapsed lapse → answer = none
  capacityExhausted : outcome = .capacityExhausted → answer = none

def SessionSound (service : PublishService) (host : KnotPublishHost Ledger Lapse)
    (session : PublishSession Ledger Lapse) : Prop :=
  match session.phase with
  | .arrived => True
  | .counted _ => True
  | .reserved => True
  | .clocked nowMs => nowMs ≤ host.clock
  | .standing nowMs => nowMs ≤ host.clock
  | .requested nowMs _ => nowMs ≤ host.clock
  | .ledgerRead nowMs _ _ => nowMs ≤ host.clock
  | .catalogRead nowMs _ _ _ => nowMs ≤ host.clock
  | .materialized draft => Drafted service session.authority host.clock draft
  | .ledgerHeld draft => Drafted service session.authority host.clock draft
  | .guarded draft => Drafted service session.authority host.clock draft
  | .timed draft nowMs => Drafted service session.authority nowMs draft
  | .writing answer => Justified service session.authority answer ∧
      answer.ledger = host.revocations ∧ answer.catalog = host.catalog
  | .finished outcome answer => Concluded service session.authority outcome answer
  | .ended outcome answer => Concluded service session.authority outcome answer

theorem SessionSound.kept {after : KnotPublishHost Ledger Lapse}
    (sound : SessionSound service host session) (clock : host.clock ≤ after.clock)
    (ledger : session.phase.holdsLedger = true → after.revocations = host.revocations)
    (catalog : session.phase.holdsCatalog = true → after.catalog = host.catalog) :
    SessionSound service after session := by
  rw [SessionSound] at sound ⊢
  cases phase : session.phase with
  | arrived => trivial
  | counted current => trivial
  | reserved => trivial
  | clocked nowMs =>
    rw [phase] at sound
    exact UInt64.le_trans sound clock
  | standing nowMs =>
    rw [phase] at sound
    exact UInt64.le_trans sound clock
  | requested nowMs request =>
    rw [phase] at sound
    exact UInt64.le_trans sound clock
  | ledgerRead nowMs request initialLedger =>
    rw [phase] at sound
    exact UInt64.le_trans sound clock
  | catalogRead nowMs request initialLedger initialCatalog =>
    rw [phase] at sound
    exact UInt64.le_trans sound clock
  | materialized draft =>
    rw [phase] at sound
    exact Drafted.later sound clock
  | ledgerHeld draft =>
    rw [phase] at sound
    exact Drafted.later sound clock
  | guarded draft =>
    rw [phase] at sound
    exact Drafted.later sound clock
  | timed draft nowMs =>
    rw [phase] at sound
    exact sound
  | writing answer =>
    rw [phase] at sound ledger catalog
    exact ⟨sound.1, sound.2.1.trans (ledger rfl).symm, sound.2.2.trans (catalog rfl).symm⟩
  | finished outcome answer =>
    rw [phase] at sound
    exact sound
  | ended outcome answer =>
    rw [phase] at sound
    exact sound

theorem concluded_unanswered (authority : RetainedAuthority Ledger Lapse)
    (outcome : KnotPublishServeOutcome Lapse) (unserved : outcome ≠ .responded) :
    Concluded service authority outcome (none : Option (PublishAnswer Ledger)) :=
  ⟨by intros; contradiction, fun responded => absurd responded unserved, fun _ _ => rfl,
    fun _ => rfl⟩

theorem concluded_written {answer : PublishAnswer Ledger}
    (justified : Justified service authority answer) {outcome : KnotPublishServeOutcome Lapse}
    (served : outcome = .responded ∨ outcome = .failed) :
    Concluded service authority outcome (some answer) := by
  refine ⟨?_, fun _ => rfl, ?_, ?_⟩
  · intro written same
    cases same
    exact justified
  · rintro lapse rfl
    rcases served with responded | failed
    · cases responded
    · cases failed
  · rintro rfl
    rcases served with responded | failed
    · cases responded
    · cases failed

theorem advance_sound (sound : SessionSound service host session)
    (chain : session.authority.Scoped) (meets : ServeMeets) :
    SessionSound service host
      { session with phase := (advance service host meets session).1 } := by
  rw [SessionSound] at sound
  rw [advance]
  cases phase : session.phase with
  | arrived => trivial
  | counted current =>
    simp only
    split
    · exact concluded_unanswered _ _ (by intro same; cases same)
    · split
      · trivial
      · trivial
  | reserved => exact UInt64.le_refl _
  | clocked nowMs =>
    rw [phase] at sound
    simp only
    cases session.authority.lapse host.revocations nowMs with
    | some lapse => exact concluded_unanswered _ _ (by intro same; cases same)
    | none => exact sound
  | standing nowMs =>
    rw [phase] at sound
    simp only
    split
    · exact sound
    · exact concluded_unanswered _ _ (by intro same; cases same)
  | requested nowMs request =>
    rw [phase] at sound
    exact sound
  | ledgerRead nowMs request initialLedger =>
    rw [phase] at sound
    exact sound
  | catalogRead nowMs request initialLedger initialCatalog =>
    rw [phase] at sound
    simp only
    split
    · rename_i draft made
      exact (drafted_sound made).later sound
    · exact concluded_unanswered _ _ (by intro same; cases same)
  | materialized draft =>
    rw [phase] at sound
    exact sound
  | ledgerHeld draft =>
    rw [phase] at sound
    exact sound
  | guarded draft =>
    rw [phase] at sound
    exact sound
  | timed draft nowMs =>
    rw [phase] at sound
    simp only
    cases unlapsed : session.authority.lapse host.revocations nowMs with
    | some lapse => exact concluded_unanswered _ _ (by intro same; cases same)
    | none =>
      simp only
      split
      · rename_i response fits
        refine ⟨?_, rfl, rfl⟩
        exact @justified_of_decided _ _ service session.authority
          ⟨draft, host.revocations, host.catalog, nowMs, response⟩ chain sound unlapsed fits
      · exact concluded_unanswered _ _ (by intro same; cases same)
  | writing answer =>
    rw [phase] at sound
    refine concluded_written sound.1 ?_
    cases meets.written with
    | true => exact Or.inl rfl
    | false => exact Or.inr rfl
  | finished outcome answer =>
    rw [phase] at sound
    exact sound
  | ended outcome answer =>
    rw [phase] at sound
    exact sound

theorem abandon_sound (sound : SessionSound service host session) :
    SessionSound service host { session with phase := (abandon host session).1 } := by
  rw [SessionSound] at sound
  rw [abandon]
  have unanswered : Concluded service session.authority .failed
      (none : Option (PublishAnswer Ledger)) :=
    concluded_unanswered _ _ (by intro same; cases same)
  cases phase : session.phase with
  | arrived => exact unanswered
  | counted current => exact unanswered
  | reserved => exact unanswered
  | clocked nowMs => exact unanswered
  | standing nowMs => exact unanswered
  | requested nowMs request => exact unanswered
  | ledgerRead nowMs request initialLedger => exact unanswered
  | catalogRead nowMs request initialLedger initialCatalog => exact unanswered
  | materialized draft => exact unanswered
  | ledgerHeld draft => exact unanswered
  | guarded draft => exact unanswered
  | timed draft nowMs => exact unanswered
  | writing answer =>
    rw [phase] at sound
    exact concluded_written sound.1 (Or.inr rfl)
  | finished outcome answer =>
    rw [phase] at sound
    exact sound
  | ended outcome answer =>
    rw [phase] at sound
    exact sound

end Sessions

section Slots

inductive SlotMove (limit active : UInt32) : Bool → Bool → UInt32 → Prop
  | kept (held : Bool) : SlotMove limit active held held active
  | taken (room : active < limit) : SlotMove limit active false true (active + 1)
  | left : SlotMove limit active true false (active - 1)

theorem advance_slots (host : KnotPublishHost Ledger Lapse)
    (session : PublishSession Ledger Lapse) (meets : ServeMeets) :
    SlotMove service.limits.maxConcurrentSessions host.activeSessions session.phase.holdsSlot
      (advance service host meets session).1.holdsSlot
      (advance service host meets session).2 := by
  rw [advance]
  cases session.phase with
  | arrived => exact .kept false
  | counted current =>
    simp only
    split
    · exact .kept false
    · rename_i room
      split
      · rename_i same
        subst same
        exact .taken (UInt32.not_le.mp room)
      · exact .kept false
  | reserved => exact .kept true
  | clocked nowMs =>
    simp only
    cases session.authority.lapse host.revocations nowMs with
    | some lapse => exact .kept true
    | none => exact .kept true
  | standing nowMs =>
    simp only
    split
    · exact .kept true
    · exact .kept true
  | requested nowMs request => exact .kept true
  | ledgerRead nowMs request initialLedger => exact .kept true
  | catalogRead nowMs request initialLedger initialCatalog =>
    simp only
    split
    · exact .kept true
    · exact .kept true
  | materialized draft => exact .kept true
  | ledgerHeld draft => exact .kept true
  | guarded draft => exact .kept true
  | timed draft nowMs =>
    simp only
    cases session.authority.lapse host.revocations nowMs with
    | some lapse => exact .kept true
    | none =>
      simp only
      split
      · exact .kept true
      · exact .kept true
  | writing answer => exact .kept true
  | finished outcome answer => exact .left
  | ended outcome answer => exact .kept false

theorem abandon_slots (host : KnotPublishHost Ledger Lapse)
    (session : PublishSession Ledger Lapse) (limit : UInt32) :
    SlotMove limit host.activeSessions session.phase.holdsSlot
      (abandon host session).1.holdsSlot (abandon host session).2 := by
  rw [abandon]
  cases session.phase with
  | arrived => exact .kept false
  | counted current => exact .kept false
  | ended outcome answer => exact .kept false
  | reserved => exact .left
  | clocked nowMs => exact .left
  | standing nowMs => exact .left
  | requested nowMs request => exact .left
  | ledgerRead nowMs request initialLedger => exact .left
  | catalogRead nowMs request initialLedger initialCatalog => exact .left
  | materialized draft => exact .left
  | ledgerHeld draft => exact .left
  | guarded draft => exact .left
  | timed draft nowMs => exact .left
  | writing answer => exact .left
  | finished outcome answer => exact .left

def liveSlots (host : KnotPublishHost Ledger Lapse) : Nat :=
  host.sessions.countP fun session => session.phase.holdsSlot

theorem countP_moved {sessions : List (PublishSession Ledger Lapse)} {index : Nat}
    (found : sessions[index]? = some session) {limit active counter : UInt32}
    (counted : active.toNat = sessions.countP fun session => session.phase.holdsSlot)
    (bounded : active ≤ limit) {phase : ServePhase Ledger Lapse}
    (move : SlotMove limit active session.phase.holdsSlot phase.holdsSlot counter) :
    counter.toNat = (sessions.set index { session with phase }).countP
      (fun session => session.phase.holdsSlot) ∧ counter ≤ limit := by
  rcases List.getElem?_eq_some_iff.mp found with ⟨inside, same⟩
  have count := @List.countP_set _ (fun session => session.phase.holdsSlot) sessions index
    { session with phase } inside
  simp only [same] at count
  rw [count]
  cases before : session.phase.holdsSlot with
  | false =>
    rw [before] at move
    cases after : phase.holdsSlot with
    | false =>
      rw [after] at move
      cases move
      exact ⟨by simpa using counted, bounded⟩
    | true =>
      rw [after] at move
      cases move with
      | taken room =>
        have below := UInt32.lt_iff_toNat_lt.mp room
        have limited := limit.toNat_lt
        refine ⟨?_, ?_⟩
        · rw [UInt32.toNat_add]
          simp
          omega
        · rw [UInt32.le_iff_toNat_le, UInt32.toNat_add]
          simp
          omega
  | true =>
    have held : 0 < sessions.countP fun session => session.phase.holdsSlot :=
      List.countP_pos_iff.mpr ⟨session, List.mem_of_getElem? found, before⟩
    rw [before] at move
    cases after : phase.holdsSlot with
    | false =>
      rw [after] at move
      cases move with
      | left =>
        have positive : (1 : UInt32) ≤ active := by
          rw [UInt32.le_iff_toNat_le, counted]
          exact held
        refine ⟨?_, ?_⟩
        · rw [UInt32.toNat_sub_of_le _ _ positive, counted]
          simp
        · rw [UInt32.le_iff_toNat_le, UInt32.toNat_sub_of_le _ _ positive]
          have := UInt32.le_iff_toNat_le.mp bounded
          omega
    | true =>
      rw [after] at move
      cases move
      refine ⟨?_, bounded⟩
      simp only [if_true]
      omega

end Slots

section Runs

structure HostSound (service : PublishService) (host : KnotPublishHost Ledger Lapse) : Prop where
  counted : host.activeSessions.toNat = liveSlots host
  bounded : host.activeSessions ≤ service.limits.maxConcurrentSessions
  sessions : ∀ session ∈ host.sessions, SessionSound service host session
  chains : ∀ session ∈ host.sessions, session.authority.Scoped

theorem HostSound.moved (sound : HostSound service host) (index : Nat)
    (move : PublishSession Ledger Lapse → ServePhase Ledger Lapse × UInt32)
    (steps : ∀ session ∈ host.sessions,
      SessionSound service host { session with phase := (move session).1 })
    (slots : ∀ session, SlotMove service.limits.maxConcurrentSessions host.activeSessions
      session.phase.holdsSlot (move session).1.holdsSlot (move session).2) :
    HostSound service (host.moved index move) := by
  rw [KnotPublishHost.moved]
  split
  · exact sound
  · rename_i session found
    have member := List.mem_of_getElem? found
    have counts := countP_moved found sound.counted sound.bounded (slots session)
    refine ⟨counts.1, counts.2, ?_, ?_⟩
    · intro other among
      rcases List.mem_or_eq_of_mem_set among with still | rfl
      · exact (sound.sessions other still).kept (UInt64.le_refl _) (fun _ => rfl) fun _ => rfl
      · exact (steps session member).kept (UInt64.le_refl _) (fun _ => rfl) fun _ => rfl
    · intro other among
      rcases List.mem_or_eq_of_mem_set among with still | rfl
      · exact sound.chains other still
      · exact sound.chains session member

theorem HostSound.changed (sound : HostSound service host) {after : KnotPublishHost Ledger Lapse}
    (sessions : after.sessions = host.sessions) (active : after.activeSessions = host.activeSessions)
    (clock : host.clock ≤ after.clock)
    (ledger : ∀ session ∈ host.sessions, session.phase.holdsLedger = true →
      after.revocations = host.revocations)
    (catalog : ∀ session ∈ host.sessions, session.phase.holdsCatalog = true →
      after.catalog = host.catalog) : HostSound service after := by
  refine ⟨?_, ?_, ?_, ?_⟩
  · rw [active, sound.counted, liveSlots, liveSlots, sessions]
  · rw [active]
    exact sound.bounded
  · rw [sessions]
    exact fun session member =>
      (sound.sessions session member).kept clock (ledger session member) (catalog session member)
  · rw [sessions]
    exact sound.chains

theorem HostSound.step (sound : HostSound service host) (action : PublishAction Ledger Lapse)
    (chain : ∀ authority, action = .arrive authority → authority.Scoped) :
    HostSound service (host.step service action) := by
  cases action with
  | arrive authority =>
    refine ⟨?_, sound.bounded, ?_, ?_⟩
    · refine sound.counted.trans ?_
      change _ = (host.sessions ++ [({ authority } : PublishSession Ledger Lapse)]).countP _
      rw [List.countP_append]
      rfl
    · intro session member
      rcases List.mem_append.mp member with early | last
      · exact (sound.sessions session early).kept (UInt64.le_refl _) (fun _ => rfl) fun _ => rfl
      · cases List.mem_singleton.mp last
        trivial
    · intro session member
      rcases List.mem_append.mp member with early | last
      · exact sound.chains session early
      · cases List.mem_singleton.mp last
        exact chain authority rfl
  | proceed index meets =>
    exact sound.moved index _
      (fun session member => advance_sound (sound.sessions session member)
        (sound.chains session member) meets)
      fun session => advance_slots host session meets
  | abandon index =>
    exact sound.moved index _
      (fun session member => abandon_sound (sound.sessions session member))
      fun session => abandon_slots host session _
  | publishAs id sourceDocument =>
    rw [KnotPublishHost.step]
    split
    · exact sound
    · rename_i free
      refine sound.changed rfl rfl (UInt64.le_refl _) (fun _ _ _ => rfl) ?_
      exact fun session member holds =>
        absurd (List.any_eq_true.mpr ⟨session, member, holds⟩) free
  | unpublish id =>
    rw [KnotPublishHost.step]
    split
    · exact sound
    · rename_i free
      refine sound.changed rfl rfl (UInt64.le_refl _) (fun _ _ _ => rfl) ?_
      exact fun session member holds =>
        absurd (List.any_eq_true.mpr ⟨session, member, holds⟩) free
  | revoke ledger =>
    rw [KnotPublishHost.step]
    split
    · exact sound
    · rename_i free
      refine sound.changed rfl rfl (UInt64.le_refl _) ?_ fun _ _ _ => rfl
      exact fun session member holds =>
        absurd (List.any_eq_true.mpr ⟨session, member, holds⟩) free
  | tick nowMs =>
    rw [KnotPublishHost.step]
    split
    · rename_i later
      exact sound.changed rfl rfl later (fun _ _ _ => rfl) fun _ _ _ => rfl
    · exact sound

theorem HostSound.run (actions : List (PublishAction Ledger Lapse))
    (chains : ∀ authority, .arrive authority ∈ actions → authority.Scoped)
    (sound : HostSound service host) : HostSound service (host.run service actions) := by
  induction actions generalizing host with
  | nil => exact sound
  | cons action rest ih =>
    refine ih (fun authority member => chains authority (List.mem_cons_of_mem _ member))
      (sound.step action ?_)
    rintro authority rfl
    exact chains authority List.mem_cons_self

structure RespectsWithdrawal (service : PublishService) (host : KnotPublishHost Ledger Lapse) :
    Prop where
  answers : ∀ session ∈ host.sessions, ∀ answer, session.phase.answer = some answer →
    Justified service session.authority answer
  /-- What was read under the final guards still holds while the response is written. -/
  guarded : ∀ session ∈ host.sessions, ∀ answer, session.phase = .writing answer →
    answer.ledger = host.revocations ∧ answer.catalog = host.catalog
  concluded : ∀ session ∈ host.sessions, ∀ outcome answer, session.phase = .ended outcome answer →
    (outcome = .responded → answer.isSome = true) ∧
      (∀ lapse, outcome = .lapsed lapse → answer = none) ∧
        (outcome = .capacityExhausted → answer = none)
  slots : host.activeSessions.toNat = liveSlots host
  capacity : host.activeSessions ≤ service.limits.maxConcurrentSessions

theorem HostSound.respects (sound : HostSound service host) : RespectsWithdrawal service host := by
  refine ⟨?_, ?_, ?_, sound.counted, sound.bounded⟩
  · intro session member answer written
    have held := sound.sessions session member
    rw [SessionSound] at held
    cases phase : session.phase with
    | writing begun =>
      rw [phase] at written held
      cases written
      exact held.1
    | finished outcome answer =>
      rw [phase] at written held
      exact held.justified _ written
    | ended outcome answer =>
      rw [phase] at written held
      exact held.justified _ written
    | _ =>
      rw [phase] at written
      cases written
  · intro session member answer writing
    have held := sound.sessions session member
    rw [SessionSound, writing] at held
    exact held.2
  · intro session member outcome answer ended
    have held := sound.sessions session member
    rw [SessionSound, ended] at held
    exact ⟨held.responded, held.lapsed, held.capacityExhausted⟩

/-- Whatever the owner withdraws, replaces or revokes while sessions are served, and however the
clock advances, a written response holds of what was read under the final guards. -/
theorem publications_respect_withdrawal (service : PublishService) (catalog : KnotPublishCatalog)
    (revocations : Ledger) (clock : UInt64) (actions : List (PublishAction Ledger Lapse))
    (chains : ∀ authority, .arrive authority ∈ actions → authority.Scoped) :
    RespectsWithdrawal service
      (({ catalog, revocations, clock } : KnotPublishHost Ledger Lapse).run service actions) := by
  refine (HostSound.run actions chains ⟨rfl, ?_, ?_, ?_⟩).respects
  · exact UInt32.le_iff_toNat_le.mpr (Nat.zero_le _)
  · intro session member
    cases member
  · intro session member
    cases member

def readerChain : RetainedAuthority Unit Unit where
  lapse _ nowMs := if nowMs < 100 then none else some ()
  covers path action nowMs :=
    (path == publicationPath 5 && action == knotPublishReadAction) && decide (nowMs < 100)

theorem readerChain_scoped : readerChain.Scoped := by
  refine ⟨_, fun nowMs => decide (nowMs < 100), fun _ _ _ => rfl, ?_⟩
  intro ledger first later _ _ unlapsed
  change (if later < 100 then none else some ()) = none at unlapsed
  by_cases early : later < 100
  · exact decide_eq_true early
  · rw [if_neg early] at unlapsed
    cases unlapsed

def noteService : PublishService where
  host := .sample (.ofPairs [(1, 2)]) [.put (.sample "note")]
  codec :=
    { response := fun _ => some ⟨#[0]⟩
      request := fun _ => some (.getCurrent 5, .empty) }
  limits := {}

def noteMeets : ServeMeets where
  frame := some ⟨#[1]⟩
  store := .sample [.sealed 1 10 0]
  vault := .sample

def noteActions : List (PublishAction Unit Unit) :=
  .publishAs 5 "note" :: .arrive readerChain :: List.replicate 14 (.proceed 0 noteMeets)

theorem publications_respect_withdrawal_note :
    RespectsWithdrawal noteService
      (({ catalog := {}, revocations := (), clock := 7 } : KnotPublishHost Unit Unit).run
        noteService noteActions) ∧
    ((({ catalog := {}, revocations := (), clock := 7 } : KnotPublishHost Unit Unit).run
      noteService noteActions).sessions.filterMap fun session =>
        session.phase.answer.map PublishAnswer.response) =
      [.document (.ofDocument noteService.host.merge 5 (.sample "note") (.filled 1))] := by
  refine ⟨publications_respect_withdrawal noteService {} () 7 noteActions ?_, by decide⟩
  intro authority member
  simp [noteActions] at member
  rw [member]
  exact readerChain_scoped

end Runs

end KnotEditor
