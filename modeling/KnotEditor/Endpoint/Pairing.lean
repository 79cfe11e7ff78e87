import KnotEditor.Utf8
import KnotEditor.Endpoint.SourceRuns
import KnotEditor.Sync.HeadVersions
import KnotEditor.VaultAgreement

/-! Text and base token over runs of a resident source. The heads a source holds always come from
the last projection it read; its documents do too, unless replacing them stopped on a derived cache
or a locked vault was unlocked on a sealed index of its own. -/

namespace KnotEditor

variable {host : SourceHost}

structure WatchedWorld (host : SourceHost) where
  world : ResidentWorld host
  reading : Reading

namespace WatchedWorld

def perform (watched : WatchedWorld host) (call : SourceCall) : WatchedWorld host where
  world := watched.world.perform call
  reading := ((watched.world.installation call).map Installation.reading).getD watched.reading

def opened (vault : KnotVault) (authority : VaultSyncAuthority) (disk : VaultDisk host.vault)
    (store : KnotSyncStore) (faults : SourceFaults) : Option (WatchedWorld host) :=
  let outcome := VaultSource.open host vault authority disk store faults
  match outcome.result, (VaultSource.unread vault authority).reading host store
      faults.loadOperations with
  | .ok (), some reading => some ⟨⟨outcome.source, outcome.disk, store⟩, reading⟩
  | _, _ => none

/-- Text and token belong together: a text is disclosed with a token whose head stands for the
version it is the body of, and the document a save replaces is one its token's head stands for. -/
structure Pairs (watched : WatchedWorld host) : Prop where
  shown : ∀ grant document text,
    watched.world.source.editableText host grant document = some text →
      ∃ head version, text.publicRevision = some head ∧
        text.baseToken = vaultBaseToken host (nativeId document.id) head ∧
        watched.reading.store.StandsFor host.sync watched.reading.cipher (nativeId document.id)
          head version ∧ version.body = text.source.toUTF8
  replaced : ∀ id payload operation authored head previous authority,
    SaveAuthored host watched.world.source watched.world.store id payload operation authored head
      previous authority →
      watched.reading.store.StandsFor host.sync watched.reading.cipher (nativeId id) head previous

end WatchedWorld

def Installation.DeletesCaches (installation : Installation host) : Prop :=
  (installation.source.vault.deleteDerivedCaches host.vault installation.faults installation.disk
    (installation.source.vault.removedIds
      (sortDocuments installation.reading.projection.documents))).1 = .ok ()

instance (installation : Installation host) : Decidable installation.DeletesCaches :=
  inferInstanceAs (Decidable (_ = _))

/-- Either a projection is installed whose cache deletions succeed, or none is; a locked vault that
is unlocked without one reads back the documents of the projection its heads came from. -/
def SettlesCall (watched : WatchedWorld host) (call : SourceCall) : Prop :=
  match watched.world.installation call with
  | some installation => installation.DeletesCaches
  | none => ∀ key faults vault, call = .unlock key faults →
      watched.world.source.vault.isLocked = true →
        watched.world.source.vault.unlock host.vault watched.world.disk key faults.loadRecord =
          .ok vault →
          vault.index.documents = sortDocuments watched.reading.projection.documents

structure WatchedWorld.Agrees (watched : WatchedWorld host) : Prop where
  projected : watched.reading.store.projectionWithCipher host.sync watched.reading.cipher =
    .ok watched.reading.projection
  heads : watched.world.source.documentHeads = watched.reading.projection.documentHeads
  documents : watched.world.source.vault.isLocked = false →
    watched.world.source.vault.index.documents =
      sortDocuments watched.reading.projection.documents
  locked : watched.world.source.vault.isLocked = true →
    watched.world.source.vault.index.documents = []

section install

theorem replaceProjection_locked (vault : KnotVault) (disk : VaultDisk host.vault)
    (documents : List VaultDocument) (faults : VaultFaults) (locked : vault.isLocked = true) :
    (vault.replaceProjection host.vault disk documents faults).vault = vault := by
  rw [KnotVault.isLocked] at locked
  simp only [KnotVault.replaceProjection, if_pos locked]

theorem replaceProjection_documents (vault : KnotVault) (disk : VaultDisk host.vault)
    (documents : List VaultDocument) (faults : VaultFaults) (unlocked : vault.isLocked = false)
    (deletes : (vault.deleteDerivedCaches host.vault faults disk
      (vault.removedIds (sortDocuments documents))).1 = .ok ()) :
    (vault.replaceProjection host.vault disk documents faults).vault.index.documents =
      sortDocuments documents := by
  have held : ¬ vault.store.isNone = true := by
    rw [← KnotVault.isLocked, unlocked]
    exact Bool.false_ne_true
  simp only [KnotVault.replaceProjection, if_neg held]
  by_cases same : vault.index.documents = sortDocuments documents
  · rw [if_pos same]
    exact same
  · rw [if_neg same]
    rcases deleted : vault.deleteDerivedCaches host.vault faults disk
        (vault.removedIds (sortDocuments documents)) with ⟨result, remaining⟩
    rw [deleted] at deletes
    cases deletes
    simp only
    split <;> rfl

theorem replaceProjection_ok {vault : KnotVault} {disk : VaultDisk host.vault}
    {documents : List VaultDocument} {faults : VaultFaults} {changed : Bool}
    (replaced : (vault.replaceProjection host.vault disk documents faults).result = .ok changed) :
    vault.isLocked = false ∧
      (vault.replaceProjection host.vault disk documents faults).vault.index.documents =
        sortDocuments documents := by
  cases locked : vault.isLocked with
  | true =>
    rw [KnotVault.isLocked] at locked
    simp [KnotVault.replaceProjection, locked] at replaced
  | false =>
    refine ⟨rfl, ?_⟩
    cases deleted : (vault.deleteDerivedCaches host.vault faults disk
        (vault.removedIds (sortDocuments documents))).1 with
    | ok _ => exact replaceProjection_documents vault disk documents faults locked deleted
    | error error =>
      have open_ : ¬ vault.store.isNone = true := by
        rw [← KnotVault.isLocked, locked]
        exact Bool.false_ne_true
      simp only [KnotVault.replaceProjection, if_neg open_] at replaced ⊢
      by_cases same : vault.index.documents = sortDocuments documents
      · rw [if_pos same]
        exact same
      · rw [if_neg same] at replaced
        split at replaced
        next => cases replaced
        next deletes =>
          rw [deletes] at deleted
          cases deleted

end install

section agree

variable {watched : WatchedWorld host} {call : SourceCall}

theorem WatchedWorld.Agrees.step (agrees : watched.Agrees) (settles : SettlesCall watched call) :
    (watched.perform call).Agrees := by
  rw [SettlesCall] at settles
  rw [WatchedWorld.perform]
  cases found : watched.world.installation call with
  | some installation =>
    rw [found] at settles
    have installs := perform_installs found
    have same := installs.source
    refine ⟨installs.projects, ?_, ?_, ?_⟩
    · rw [same]
      rfl
    · simp only [same, VaultSource.installProjection]
      intro unlocked
      rw [KnotVault.isLocked, replaceProjection_store] at unlocked
      exact replaceProjection_documents _ _ _ _ unlocked settles
    · simp only [same, VaultSource.installProjection]
      intro locked
      rw [KnotVault.isLocked, replaceProjection_store] at locked
      rw [replaceProjection_locked _ _ _ _ locked]
      rcases installs.vault with kept | ⟨key, fault, opens⟩
      · rw [kept]
        rw [← KnotVault.isLocked, kept] at locked
        exact agrees.locked locked
      · rw [← KnotVault.isLocked, unlock_unlocks opens] at locked
        cases locked
  | none =>
    rw [found] at settles
    have quiet := perform_quiet found
    refine ⟨agrees.projected, quiet.heads.trans agrees.heads, ?_, ?_⟩
    · intro unlocked
      rcases quiet.vault with same | locks | ⟨key, faults, rfl, opens⟩
      · simp only [same] at unlocked ⊢
        exact agrees.documents unlocked
      · simp only [locks, KnotVault.lock, KnotVault.isLocked] at unlocked
        cases unlocked
      · cases before : watched.world.source.vault.isLocked with
        | true => exact settles key faults _ rfl before opens
        | false =>
          rw [KnotVault.unlock, before] at opens
          have same := Except.ok.inj opens
          rw [← same]
          exact agrees.documents before
    · intro locked
      rcases quiet.vault with same | locks | ⟨key, faults, rfl, opens⟩
      · simp only [same] at locked ⊢
        exact agrees.locked locked
      · rw [locks]
        rfl
      · rw [unlock_unlocks opens] at locked
        cases locked

theorem editable_eq_some_iff {source : VaultSource} {grant : KnotWriteGrant} {id text : String}
    {head : Bytes32} :
    source.editable grant id = some (text, head) ↔
      (source.sync.isNone || source.pendingHistory || source.conflicts.contains id) = false ∧
        ∃ body, source.vault.body id = some body ∧
          ¬ grant.maxSourceBytes.toNat < body.size ∧ String.fromUTF8? body = some text ∧
          source.documentHeads[id]? = some head := by
  simp only [VaultSource.editable]
  cases barred : source.sync.isNone || source.pendingHistory || source.conflicts.contains id with
  | true => simp
  | false =>
    simp only [Bool.false_eq_true, if_false, true_and, Option.bind_eq_bind,
      Option.bind_eq_some_iff, Option.pure_def]
    refine exists_congr fun body => and_congr_right fun _ => ?_
    by_cases large : grant.maxSourceBytes.toNat < body.size
    · simp [large]
    · simp [large, Option.bind_eq_some_iff]

theorem editableText_eq_some {source : VaultSource} {grant : Option KnotWriteGrant}
    {document : PresentedDocument} {shown : EditableText}
    (edits : source.editableText host grant document = some shown) :
    ∃ allowed head, source.editable allowed (nativeId document.id) = some (shown.source, head) ∧
      shown.publicRevision = some head ∧
      shown.baseToken = vaultBaseToken host (nativeId document.id) head := by
  simp only [VaultSource.editableText, Option.bind_eq_bind, Option.bind_eq_some_iff,
    Prod.exists] at edits
  obtain ⟨allowed, _, _, _, text, head, read, made⟩ := edits
  cases made
  exact ⟨allowed, head, read, rfl, rfl⟩

theorem WatchedWorld.Agrees.stands_for (agrees : watched.Agrees) {id : String} {head : Bytes32}
    {version : VaultDocument}
    (held : (watched.world.source.vault.index.documents.find? fun document =>
      document.id == id) = some version)
    (headed : watched.world.source.documentHeads[id]? = some head) :
    watched.reading.store.StandsFor host.sync watched.reading.cipher id head version := by
  have listed := List.mem_of_find?_eq_some held
  have named : version.id = id := by simpa using List.find?_some held
  cases unlocked : watched.world.source.vault.isLocked with
  | true =>
    rw [agrees.locked unlocked] at listed
    cases listed
  | false =>
    rw [agrees.documents unlocked, sortDocuments, List.mem_mergeSort] at listed
    obtain ⟨other, others, stands⟩ :=
      KnotSyncStore.stands_for_of_projection agrees.projected listed
    rw [agrees.heads, ← named, others] at headed
    cases headed
    rw [← named]
    exact stands

theorem WatchedWorld.Agrees.pairs (agrees : watched.Agrees) : watched.Pairs where
  shown grant document text edits := by
    obtain ⟨allowed, head, read, revision, token⟩ := editableText_eq_some edits
    obtain ⟨_, body, held, _, decoded, headed⟩ := editable_eq_some_iff.mp read
    rw [KnotVault.body] at held
    split at held
    next => cases held
    next =>
      obtain ⟨version, found, rfl⟩ := Option.map_eq_some_iff.mp held
      exact ⟨head, version, revision, token, agrees.stands_for found headed,
        (toUTF8_of_fromUTF8 decoded).symm⟩
  replaced id payload operation authored head previous authority save :=
    agrees.stands_for save.held save.headed

theorem settles_of_installation (settled : (watched.world.installation call).any
    (fun installation => decide installation.DeletesCaches) = true) :
    SettlesCall watched call := by
  rw [SettlesCall]
  cases found : watched.world.installation call with
  | none =>
    rw [found] at settled
    cases settled
  | some installation =>
    rw [found] at settled
    exact of_decide_eq_true settled

theorem opened_agrees {vault : KnotVault} {authority : VaultSyncAuthority}
    {disk : VaultDisk host.vault} {store : KnotSyncStore} {faults : SourceFaults}
    (opened : WatchedWorld.opened vault authority disk store faults = some watched) :
    watched.Agrees := by
  simp only [WatchedWorld.opened, VaultSource.open] at opened
  have spec := refreshProjection_spec (VaultSource.unread vault authority) disk store faults
  cases read : (VaultSource.unread vault authority).reading host store
      faults.loadOperations with
  | none => simp [read] at opened
  | some reading =>
    rw [read] at spec
    simp only [read, spec] at opened
    split at opened
    next done found =>
      cases found
      cases opened
      simp only [VaultSource.installProjection] at done
      cases replaced : (vault.replaceProjection host.vault disk
          reading.projection.documents faults.toVaultFaults).result with
      | error error =>
        simp only [VaultSource.unread, replaced] at done
        cases done
      | ok changed =>
        obtain ⟨unlocked, documents⟩ := replaceProjection_ok replaced
        refine ⟨(reading_spec read).1, rfl, fun _ => documents, ?_⟩
        simp only [VaultSource.installProjection, VaultSource.unread]
        rw [KnotVault.isLocked, replaceProjection_store, ← KnotVault.isLocked, unlocked]
        exact fun locked => absurd locked Bool.false_ne_true
    next => cases opened

/-- In every run whose installations and unlocks settle, text and token belong together in every
state reached. -/
theorem editable_text_pairs_with_its_token (vault : KnotVault) (authority : VaultSyncAuthority)
    (disk : VaultDisk host.vault) (store : KnotSyncStore) (faults : SourceFaults)
    (start : WatchedWorld host)
    (opened : WatchedWorld.opened vault authority disk store faults = some start)
    (calls : List SourceCall) (settles : Run.Along WatchedWorld.perform SettlesCall start calls) :
    (calls.foldl WatchedWorld.perform start).Pairs := by
  refine WatchedWorld.Agrees.pairs ?_
  refine Run.invariant_run ?_ calls start (opened_agrees opened) settles
  intro watched call agrees settled
  exact agrees.step settled

end agree

def SourceHost.sample (causal : CausalIndex) (vocabulary : List KnotSyncEvent) : SourceHost where
  sync := .sample causal vocabulary
  vault := .sample
  sealBytes _ _ plaintext := .ok plaintext
  unsealBytes _ _ ciphertext := .ok ciphertext
  deriveHash _ bytes := .filled (bytes.data.toList.getLastD 0)
  epochIds _ := []
  currentEpoch _ := none
  validateSource _ _ _ := .ok ()

def draftNote : VaultDocument :=
  { id := "note", title := "Note", body := "draft".toUTF8, mediaType := "text/vnd.knot" }

def noteHost : SourceHost := .sample .byHash [.put draftNote, .delete "note"]

def openedNote : Option (WatchedWorld noteHost) :=
  WatchedWorld.opened openedVault (.personal (.filled 10)) emptyDisk (.sample [.sealed 1 10 0]) {}

theorem openedNote_isSome : openedNote.isSome = true := by decide +kernel

def noteWorld : WatchedWorld noteHost := openedNote.get openedNote_isSome

def deletionCalls (faults : SourceFaults) : List SourceCall :=
  [.accept (.sealed 2 10 1), .refresh faults]

def deletedNote (faults : SourceFaults) : WatchedWorld noteHost :=
  (deletionCalls faults).foldl WatchedWorld.perform noteWorld

def busyCaches : SourceFaults := { deleteRecord := fun _ => some "busy" }

theorem deletedNote_shows :
    (deletedNote busyCaches).world.source.editableText noteHost (some ⟨100⟩)
      (VaultSource.presentDocument draftNote) = some {
        address := "knot://vault/note"
        mediaType := "text/vnd.knot"
        source := "draft"
        publicRevision := some (.filled 2)
        baseToken := vaultBaseToken noteHost "note" (.filled 2) } := by
  decide +kernel

theorem deletedNote_closed :
    (deletedNote busyCaches).reading.store.closedOperations noteHost.sync =
      .ok ([.sealed 1 10 0, .sealed 2 10 1], []) := by
  decide +kernel

def deletionEvents : Operation → Option KnotSyncEvent :=
  readableEvents noteHost.sync (deletedNote busyCaches).reading.cipher

def deletionReplay : DocumentReplay :=
  replayDocuments deletionEvents .byHash [.sealed 1 10 0, .sealed 2 10 1]

theorem deletionReplay_unmerged :
    (deletionReplay.current["note"]?.bind fun versions =>
      automaticTextMerge noteHost.sync.merge .byHash deletionReplay.versionHistory "note"
        versions) = none := by
  decide +kernel

/-- A refresh that cannot delete the derived cache of a deleted note keeps its text, under the
token of the deletion. -/
theorem deleted_text_outlives_its_version :
    openedNote = some noteWorld ∧ ¬ (deletedNote busyCaches).Pairs := by
  refine ⟨(Option.some_get openedNote_isSome).symm, ?_⟩
  intro pairs
  obtain ⟨head, version, revision, _, ⟨order, pending, closed, stands⟩, _⟩ :=
    pairs.shown _ _ _ deletedNote_shows
  have native : nativeId (VaultSource.presentDocument draftNote).id = "note" := by decide
  cases revision
  rw [deletedNote_closed] at closed
  cases closed
  rw [native] at stands
  cases stands with
  | operation operation member named wrote =>
    rcases List.mem_cons.mp member with rfl | last
    · revert named
      decide
    · rw [List.mem_singleton.mp last] at wrote
      have deleted : written deletionEvents (.sealed 2 10 1) = some ("note", none) := by
        decide +kernel
      rw [deletionEvents, wrote] at deleted
      cases deleted
  | merge versions automatic current merged =>
    have unmerged := deletionReplay_unmerged
    rw [show deletionReplay.current["note"]? = some versions from current, Option.bind_some]
      at unmerged
    exact Option.some_ne_none automatic (merged.symm.trans unmerged)

theorem deletedNote_settles :
    Run.Along WatchedWorld.perform SettlesCall noteWorld (deletionCalls {}) := by
  refine ⟨?_, ?_, trivial⟩
  · intro key faults vault same
    cases same
  · refine settles_of_installation ?_
    decide +kernel

theorem editable_text_pairs_with_its_token_deletedNote : (deletedNote {}).Pairs :=
  @editable_text_pairs_with_its_token noteHost openedVault (.personal (.filled 10)) emptyDisk
    (.sample [.sealed 1 10 0]) {} noteWorld (Option.some_get openedNote_isSome).symm
    (deletionCalls {}) deletedNote_settles

end KnotEditor
