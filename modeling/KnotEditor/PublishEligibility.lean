import KnotEditor.Publish
import KnotEditor.Sync.Projectable
import KnotEditor.Sync.Standing

/-! What publication serves. A source is served when one readable version of it stands alone; that
unreadable operations may stand beside it goes unnoticed. -/

namespace KnotEditor

open Fallible KeyedCollections

section

variable {projection : KnotDocumentProjection} {publication : KnotPublication}
variable {document : VaultDocument} {head : Bytes32}

theorem eligibleSource_eq_some_iff :
    KnotPublishCatalog.eligibleSource projection publication = some (document, head) ↔
      projection.pending = [] ∧
      (∀ conflict ∈ projection.conflicts, conflict.id ≠ publication.sourceDocument) ∧
      (∀ merge ∈ projection.automaticMerges, merge.id ≠ publication.sourceDocument) ∧
      projection.documentHeads[publication.sourceDocument]? = some head ∧
      (projection.documents.find? fun document =>
        document.id == publication.sourceDocument) = some document ∧
      isPublishableMediaType document.mediaType = true := by
  simp only [KnotPublishCatalog.eligibleSource, Option.bind_eq_bind, refuse_eq_some_iff,
    Option.bind_eq_some_iff, Bool.or_eq_true,
    not_or, Bool.not_eq_true', List.isEmpty_eq_false_iff, List.any_eq_true, beq_iff_eq, not_exists,
    not_and, not_not, Bool.not_eq_false, and_assoc]
  refine and_congr_right fun _ => and_congr_right fun _ => and_congr_right fun _ => ?_
  constructor
  · rintro ⟨_, read, _, found, publishable, made⟩
    cases made
    exact ⟨read, found, publishable⟩
  · rintro ⟨read, found, publishable⟩
    exact ⟨head, read, document, found, publishable, rfl⟩

end

section

variable {host : MergeHost} {events : Operation → Option KnotSyncEvent} {causal : CausalIndex}
variable {order : List Operation} {settled : SettledDocuments} {document : VaultDocument}
variable {source : String} {head : Bytes32}

theorem shown_under_own_id (ordered : CausalOrder causal order)
    (chained : SingleWriter causal order) (resolves : ResolvesAdmissible events causal order)
    (settling : settleDocuments host causal (replayDocuments events causal order) = .ok settled)
    (shown : document ∈ settled.documents) :
    ∃ versions, (replayDocuments events causal order).current[document.id]? = some versions ∧
      Shows host causal (replayDocuments events causal order).versionHistory document.id versions
        document := by
  obtain ⟨⟨id, versions⟩, member, shows⟩ :=
    (settlement_of_settleDocuments settling).documents document shown
  have read := Std.ExtTreeMap.mem_toList_iff_getElem?_eq_some.mp member
  have owns {version : KnotDocumentVersion} (held : version ∈ versions.values)
      {written : VaultDocument} (carries : version.document = some written) : written.id = id := by
    obtain ⟨writer, slot⟩ := (mem_values_iff versions version).mp held
    obtain ⟨operation, standing, _, rfl⟩ :=
      (current_getElem?_iff ordered chained resolves read writer version).mp slot
    obtain ⟨content, wrote⟩ := writtenId_eq_some_iff.mp standing.writes
    rw [writtenVersion_eq wrote] at carries
    rw [show content = some written from carries] at wrote
    exact written_document_id resolves standing.member wrote
  have same : document.id = id := by
    rcases shows with ⟨version, values, carries⟩ | ⟨_, automatic, merged, rfl⟩
    · exact owns (by simp [values]) carries
    · obtain ⟨_, left, right, written, values, carries, sameId, _⟩ := automaticTextMerge_spec merged
      exact sameId.trans (owns (by simp [values]) carries)
  rw [same]
  exact ⟨versions, read, shows⟩

theorem alone_of_settled_head (ordered : CausalOrder causal order)
    (chained : SingleWriter causal order) (resolves : ResolvesAdmissible events causal order)
    (settling : settleDocuments host causal (replayDocuments events causal order) = .ok settled)
    (noConflict : ∀ conflict ∈ settled.conflicts, conflict.id ≠ source)
    (noMerge : ∀ merge ∈ settled.automaticMerges, merge.id ≠ source)
    (heads : settled.documentHeads[source]? = some head) :
    ∃ operation, StandsAlone events causal order source operation ∧ operation.hash = head := by
  obtain ⟨⟨id, versions⟩, member, rfl⟩ :=
    (settlement_of_settleDocuments settling).heads source head heads
  have read := Std.ExtTreeMap.mem_toList_iff_getElem?_eq_some.mp member
  cases settles_of_current settling read with
  | sole version values _ top =>
    obtain ⟨operation, alone, wrote⟩ :=
      (current_sole_iff ordered chained resolves read version).mp values
    rw [heads, Option.some.injEq] at top
    exact ⟨operation, alone, by rw [top, ← wrote]; rfl⟩
  | merged automatic _ merge _ listed =>
    exact absurd (automaticTextMerge_spec merge).1 (noMerge automatic listed)
  | contested _ _ listed => exact absurd rfl (noConflict _ listed)

theorem settled_of_alone (ordered : CausalOrder causal order)
    (chained : SingleWriter causal order) (resolves : ResolvesAdmissible events causal order)
    (settling : settleDocuments host causal (replayDocuments events causal order) = .ok settled)
    {operation : Operation} (alone : StandsAlone events causal order source operation) :
    (∀ conflict ∈ settled.conflicts, conflict.id ≠ source) ∧
      (∀ merge ∈ settled.automaticMerges, merge.id ≠ source) ∧
      settled.documentHeads[source]? = some operation.hash ∧
      ∀ document, document ∈ settled.documents ∧ document.id = source ↔
        written events operation = some (source, some document) := by
  have settlement := settlement_of_settleDocuments settling
  obtain ⟨versions, read⟩ := current_of_standing alone.standing
  have values := (current_sole_iff ordered chained resolves read _).mpr ⟨operation, alone, rfl⟩
  have only : Sole versions := ⟨_, values⟩
  have entryOf {id : String} {others : WriterVersions}
      (member : (id, others) ∈ (replayDocuments events causal order).current.toList)
      (same : id = source) : others = versions := by
    have othersRead := Std.ExtTreeMap.mem_toList_iff_getElem?_eq_some.mp member
    rw [same, read, Option.some.injEq] at othersRead
    exact othersRead.symm
  obtain ⟨content, wrote⟩ := writtenId_eq_some_iff.mp alone.standing.writes
  rw [writtenVersion_eq wrote] at values
  refine ⟨fun conflict listed same => ?_, fun merge listed same => ?_, ?_⟩
  · obtain ⟨⟨id, others⟩, member, named, _, several⟩ := settlement.conflicts conflict listed
    rw [entryOf member (named.trans same)] at several
    exact several only
  · obtain ⟨⟨id, others⟩, member, named, several⟩ := settlement.merges merge listed
    rw [entryOf member (named.trans same)] at several
    exact several only
  cases settles_of_current settling read with
  | merged _ several => exact absurd only several
  | contested several => exact absurd only several
  | sole version shownValues shown top =>
    rw [values, List.cons.injEq] at shownValues
    obtain ⟨rfl, _⟩ := shownValues
    refine ⟨top, fun document => ⟨?_, fun writes => ?_⟩⟩
    · rintro ⟨listed, own⟩
      obtain ⟨others, othersRead, shows⟩ :=
        shown_under_own_id ordered chained resolves settling listed
      rw [own, read, Option.some.injEq] at othersRead
      subst othersRead
      rcases shows with ⟨_, others, carries⟩ | ⟨several, _⟩
      · rw [values, List.cons.injEq] at others
        rw [← others.1] at carries
        rw [wrote, show content = some document from carries]
      · exact absurd only several
    · rw [wrote, Option.some.injEq, Prod.mk.injEq] at writes
      refine ⟨shown document writes.2, ?_⟩
      rw [writes.2] at wrote
      exact written_document_id resolves alone.standing.member wrote

theorem settled_source_iff (ordered : CausalOrder causal order)
    (chained : SingleWriter causal order) (resolves : ResolvesAdmissible events causal order)
    (settling : settleDocuments host causal (replayDocuments events causal order) =
      .ok settled) :
    ((∀ conflict ∈ settled.conflicts, conflict.id ≠ source) ∧
      (∀ merge ∈ settled.automaticMerges, merge.id ≠ source) ∧
      settled.documentHeads[source]? = some head ∧
      (settled.documents.find? fun document => document.id == source) = some document) ↔
      ∃ operation, StandsAlone events causal order source operation ∧ operation.hash = head ∧
        written events operation = some (source, some document) := by
  constructor
  · rintro ⟨noConflict, noMerge, heads, found⟩
    obtain ⟨operation, alone, top⟩ :=
      alone_of_settled_head ordered chained resolves settling noConflict noMerge heads
    obtain ⟨_, _, _, shows⟩ := settled_of_alone ordered chained resolves settling alone
    have own := List.find?_some found
    rw [beq_iff_eq] at own
    exact ⟨operation, alone, top, (shows document).mp ⟨List.mem_of_find?_eq_some found, own⟩⟩
  · rintro ⟨operation, alone, rfl, wrote⟩
    obtain ⟨noConflict, noMerge, top, shows⟩ :=
      settled_of_alone ordered chained resolves settling alone
    refine ⟨noConflict, noMerge, top, ?_⟩
    obtain ⟨listed, own⟩ := (shows document).mpr wrote
    cases found : settled.documents.find? fun document => document.id == source with
    | none =>
      have absent := List.find?_eq_none.mp found document listed
      rw [beq_iff_eq] at absent
      exact absurd own absent
    | some other =>
      have otherOwn := List.find?_some found
      rw [beq_iff_eq] at otherOwn
      have writes := (shows other).mp ⟨List.mem_of_find?_eq_some found, otherOwn⟩
      rw [wrote, Option.some.injEq, Prod.mk.injEq] at writes
      exact writes.2.symm

end

section

variable {host : SyncHost} {store : KnotSyncStore} {vault : SyncVault}
variable {publication : KnotPublication} {order : List Operation}
variable {pending : List PendingCausalOperation} {document : VaultDocument} {head : Bytes32}

def Servable (host : SyncHost) (store : KnotSyncStore) (vault : SyncVault) (order : List Operation)
    (source : String) (document : VaultDocument) (head : Bytes32) : Prop :=
  (∃ operation, StandsAlone (readableEvents host (.personal vault)) (store.causal host) order source
      operation ∧ operation.hash = head ∧
    written (readableEvents host (.personal vault)) operation = some (source, some document)) ∧
  isPublishableMediaType document.mediaType = true

def HolderProjects (host : SyncHost) (store : KnotSyncStore) (vault : SyncVault)
    (order : List Operation) : Prop :=
  store.policy.encryption = .personalVaultV1 ∧
    ResolvesAdmissible (readableEvents host (.personal vault)) (store.causal host) order

theorem currentEligible_projects {result : Option (VaultDocument × Bytes32)}
    (made : KnotPublishCatalog.currentEligible host store vault publication = .ok result) :
    ∃ projection, store.projection host vault = .ok projection := by
  simp only [KnotPublishCatalog.currentEligible, bind_eq_ok_iff, mapError_eq_ok_iff] at made
  obtain ⟨projection, projected, _⟩ := made
  exact ⟨projection, projected⟩

variable (vault publication) in
theorem currentEligible_ok_iff (closed : store.closedOperations host = .ok (order, pending))
    (ordered : CausalOrder (store.causal host) order)
    (encodes : ∀ base supersedes document, ∃ bytes,
      host.merge.encodeCbor base supersedes document = .ok bytes) :
    (∃ result, KnotPublishCatalog.currentEligible host store vault publication = .ok result) ↔
      HolderProjects host store vault order := by
  have projects : (∃ projection, store.projectionWithCipherAndStrictness host (.personal vault)
      .tolerant = .ok projection) ↔ _ := KnotSyncStore.projects_iff closed encodes
  simp only [reduceCtorEq, false_implies, true_and] at projects
  rw [resolvesInTurn_iff ordered] at projects
  rw [HolderProjects, eq_comm,
    ← show KnotSyncCipher.profile (.personal vault) = .personalVaultV1 from rfl,
    ← projects]
  constructor
  · rintro ⟨result, made⟩
    exact currentEligible_projects made
  · rintro ⟨projection, projected⟩
    simp only [KnotPublishCatalog.currentEligible, bind_eq_ok_iff, mapError_eq_ok_iff]
    exact ⟨_, projection, projected, rfl⟩

theorem currentEligible_eq_some_iff
    (closed : store.closedOperations host = .ok (order, pending))
    (ordered : CausalOrder (store.causal host) order)
    (chained : SingleWriter (store.causal host) order)
    (projects : ∃ projection, store.projection host vault = .ok projection) :
    KnotPublishCatalog.currentEligible host store vault publication =
        .ok (some (document, head)) ↔
      pending = [] ∧ Servable host store vault order publication.sourceDocument document head := by
  obtain ⟨projection, projected⟩ := projects
  have parts := (KnotSyncStore.projection_ok_iff closed).mp projected
  rw [projectEvents_ok_iff] at parts
  obtain ⟨_, _, turns, settled, settling, rfl⟩ := parts
  have resolves := (resolvesInTurn_iff ordered).mp turns
  rw [KnotPublishCatalog.currentEligible, Servable, projected,
    ← settled_source_iff ordered chained resolves settling]
  change (Except.ok (KnotPublishCatalog.eligibleSource _ publication) : Except KnotPublishError _) =
    _ ↔ _
  rw [Except.ok.injEq, eligibleSource_eq_some_iff]
  simp only [and_assoc]

theorem currentEligible_eq_none_iff
    (closed : store.closedOperations host = .ok (order, pending))
    (ordered : CausalOrder (store.causal host) order)
    (chained : SingleWriter (store.causal host) order)
    (encodes : ∀ base supersedes document, ∃ bytes,
      host.merge.encodeCbor base supersedes document = .ok bytes) :
    KnotPublishCatalog.currentEligible host store vault publication = .ok none ↔
      HolderProjects host store vault order ∧ (pending ≠ [] ∨
        ¬ ∃ document head, Servable host store vault order publication.sourceDocument document
          head) := by
  rw [← currentEligible_ok_iff vault publication closed ordered encodes]
  constructor
  · intro nothing
    refine ⟨⟨none, nothing⟩, ?_⟩
    by_contra both
    simp only [not_or, not_not] at both
    obtain ⟨complete, document, head, servable⟩ := both
    have projects := currentEligible_projects nothing
    rw [(currentEligible_eq_some_iff closed ordered chained projects).mpr ⟨complete, servable⟩]
      at nothing
    cases nothing
  · rintro ⟨⟨result, made⟩, gap⟩
    cases result with
    | none => exact made
    | some served =>
      have projects := currentEligible_projects made
      obtain ⟨complete, servable⟩ :=
        (currentEligible_eq_some_iff closed ordered chained projects).mp made
      rcases gap with waiting | unservable
      · exact absurd complete waiting
      · exact absurd ⟨served.1, served.2, servable⟩ unservable

end

/-- Some operation of the space is pending, or closed and unreadable to this holder. -/
def HistoryGap (host : SyncHost) (vault : SyncVault) (order : List Operation)
    (pending : List PendingCausalOperation) : Prop :=
  pending ≠ [] ∨ ∃ operation ∈ order, ∀ event, decodeEvent host (.personal vault) operation ≠
    .ok event

def Decoded (host : SyncHost) (vault : SyncVault) (order : List Operation) (id : PublicationId)
    (source : String) (operation : Operation) (published : KnotPublishedDocument) : Prop :=
  operation ∈ order ∧ ∃ event document,
    decodeEvent host (.personal vault) operation = .ok event ∧
    KnotSyncStore.versionOf source event = some document ∧
    published = KnotPublishedDocument.ofDocument host.merge id document operation.hash

/-- An operation is the sole head of a document that is neither conflicted nor merged. -/
def SoleHead (host : SyncHost) (store : KnotSyncStore) (vault : SyncVault) (order : List Operation)
    (source : String) (operation : Operation) : Prop :=
  StandsAlone (readableEvents host (.personal vault)) (store.causal host) order source operation ∧
    ∃ projection, store.projection host vault = .ok projection ∧
      projection.documentHeads[source]? = some operation.hash ∧
      (∀ conflict ∈ projection.conflicts, conflict.id ≠ source) ∧
      ∀ merge ∈ projection.automaticMerges, merge.id ≠ source

section

variable {Ledger Lapse : Type} (host : SyncHost) (store : KnotSyncStore) (vault : SyncVault)
variable (catalog : KnotPublishCatalog) (authority : RetainedAuthority Ledger Lapse)
variable (ledger : Ledger) (nowMs : UInt64) (id : PublicationId) (order : List Operation)
variable (pending : List PendingCausalOperation)

/-- Publication serves nothing beside a gap, and only what it claims to serve without one. -/
structure ServesWholeView : Prop where
  withheld : HistoryGap host vault order pending →
    catalog.getCurrent host store vault authority ledger nowMs id = .ok .notAvailable ∧
    (∀ operation, catalog.getVersion host store vault authority ledger nowMs id operation =
      .ok .notAvailable) ∧
    catalog.currentForMarkExport host store vault id = .ok none
  current : ∀ published, catalog.getCurrent host store vault authority ledger nowMs id =
      .ok (.document published) →
    ∃ publication, catalog.publications[id]? = some publication ∧ ∃ operation,
      Decoded host vault order id publication.sourceDocument operation published ∧
      SoleHead host store vault order publication.sourceDocument operation
  version : ∀ target published,
    catalog.getVersion host store vault authority ledger nowMs id target =
      .ok (.document published) →
    ∃ publication, catalog.publications[id]? = some publication ∧ ∃ operation,
      operation.hash = target ∧
      Decoded host vault order id publication.sourceDocument operation published
  exported : ∀ published, catalog.currentForMarkExport host store vault id =
      .ok (some published) →
    ∃ publication, catalog.publications[id]? = some publication ∧ ∃ operation,
      Decoded host vault order id publication.sourceDocument operation published ∧
      SoleHead host store vault order publication.sourceDocument operation

end

section

variable {Ledger Lapse : Type} {host : SyncHost} {store : KnotSyncStore} {vault : SyncVault}
variable {catalog : KnotPublishCatalog} {authority : RetainedAuthority Ledger Lapse}
variable {ledger : Ledger} {nowMs : UInt64} {id : PublicationId} {order : List Operation}
variable {pending : List PendingCausalOperation} {publication : KnotPublication}
variable {document : VaultDocument} {head : Bytes32}

theorem selected_of_authorized
    (authorized : catalog.authorizedPublication authority ledger nowMs id = some publication) :
    catalog.publications[id]? = some publication := by
  rw [KnotPublishCatalog.authorizedPublication] at authorized
  split at authorized
  next => exact (Option.filter_eq_some_iff.mp authorized).1
  next => cases authorized

theorem versionOf_of_writeOf {event : KnotSyncEvent} {source : String}
    (writes : writeOf event = some (source, some document)) (own : document.id = source) :
    KnotSyncStore.versionOf source event = some document := by
  cases event <;> cases writes
  · exact if_pos rfl
  · exact if_pos ⟨rfl, own⟩

theorem decoded_of_eligible (closed : store.closedOperations host = .ok (order, pending))
    (ordered : CausalOrder (store.causal host) order)
    (chained : SingleWriter (store.causal host) order)
    (eligible : KnotPublishCatalog.currentEligible host store vault publication =
      .ok (some (document, head))) :
    ∃ operation, Decoded host vault order id publication.sourceDocument operation
        (KnotPublishedDocument.ofDocument host.merge id document head) ∧
      SoleHead host store vault order publication.sourceDocument operation := by
  obtain ⟨projection, projected⟩ := currentEligible_projects eligible
  obtain ⟨_, ⟨operation, alone, rfl, wrote⟩, _⟩ :=
    (currentEligible_eq_some_iff closed ordered chained ⟨projection, projected⟩).mp eligible
  have parts := (KnotSyncStore.projection_ok_iff closed).mp projected
  rw [projectEvents_ok_iff] at parts
  have resolves := (resolvesInTurn_iff ordered).mp parts.2.2.1
  refine ⟨operation, ⟨alone.standing.member, ?_⟩, alone, projection, projected, ?_⟩
  · have own := written_document_id resolves alone.standing.member wrote
    obtain ⟨event, read, made⟩ := Option.bind_eq_some_iff.mp wrote
    exact ⟨event, document, readableEvents_eq_some_iff.mp read, versionOf_of_writeOf made own, rfl⟩
  · simp only [KnotPublishCatalog.currentEligible, projected, Except.mapError, bind, Except.bind,
      pure, Except.pure, Except.ok.injEq] at eligible
    obtain ⟨_, noConflict, noMerge, heads, _⟩ := eligibleSource_eq_some_iff.mp eligible
    exact ⟨heads, noConflict, noMerge⟩

theorem documentVersion_eq_some (closed : store.closedOperations host = .ok (order, pending))
    {source : String} {target : Bytes32}
    (read : store.documentVersion host vault source target = .ok (some document)) :
    ∃ operation ∈ order, operation.hash = target ∧ ∃ event,
      decodeEvent host (.personal vault) operation = .ok event ∧
      KnotSyncStore.versionOf source event = some document := by
  rw [KnotSyncStore.documentVersion, KnotSyncStore.documentVersionWithCipher] at read
  rw [closed] at read
  simp only [bind_eq_ok_iff, Except.ok.injEq] at read
  obtain ⟨_, _, _, rfl, found⟩ := read
  split at found
  next => cases found
  next operation located =>
    obtain ⟨event, decoded, made⟩ := bind_eq_ok_iff.mp found
    have own := List.find?_some located
    rw [beq_iff_eq] at own
    exact ⟨operation, List.mem_of_find?_eq_some located, own, event, decoded, Except.ok.inj made⟩

theorem withheld_of_eligible_none
    (nothing : ∀ publication, catalog.publications[id]? = some publication →
      KnotPublishCatalog.currentEligible host store vault publication = .ok none) :
    catalog.getCurrent host store vault authority ledger nowMs id = .ok .notAvailable ∧
    (∀ operation, catalog.getVersion host store vault authority ledger nowMs id operation =
      .ok .notAvailable) ∧
    catalog.currentForMarkExport host store vault id = .ok none := by
  simp only [KnotPublishCatalog.getCurrent, KnotPublishCatalog.getVersion,
    KnotPublishCatalog.currentForMarkExport]
  refine ⟨?_, fun operation => ?_, ?_⟩
  · cases authorized : catalog.authorizedPublication authority ledger nowMs id with
    | none => rfl
    | some publication =>
      simp only [nothing publication (selected_of_authorized authorized)]
      rfl
  · cases authorized : catalog.authorizedPublication authority ledger nowMs id with
    | none => rfl
    | some publication =>
      simp only [nothing publication (selected_of_authorized authorized)]
      rfl
  · cases selected : catalog.publications[id]? with
    | none => rfl
    | some publication =>
      simp only [nothing publication selected]
      rfl

theorem eligible_none_of_withheld (selected : catalog.publications[id]? = some publication)
    (withheld : catalog.currentForMarkExport host store vault id = .ok none) :
    KnotPublishCatalog.currentEligible host store vault publication = .ok none := by
  rw [KnotPublishCatalog.currentForMarkExport] at withheld
  rw [selected] at withheld
  obtain ⟨result, made, rest⟩ := bind_eq_ok_iff.mp withheld
  cases result with
  | none => exact made
  | some served => cases rest

theorem eligible_of_getCurrent {published : KnotPublishedDocument}
    (served : catalog.getCurrent host store vault authority ledger nowMs id =
      .ok (.document published)) :
    ∃ publication document head, catalog.publications[id]? = some publication ∧
      KnotPublishCatalog.currentEligible host store vault publication =
        .ok (some (document, head)) ∧
      published = KnotPublishedDocument.ofDocument host.merge id document head := by
  rw [KnotPublishCatalog.getCurrent] at served
  split at served
  next => cases served
  next publication authorized =>
    obtain ⟨result, made, rest⟩ := bind_eq_ok_iff.mp served
    rcases result with _ | ⟨document, head⟩
    · cases rest
    · cases rest
      exact ⟨publication, document, head, selected_of_authorized authorized, made, rfl⟩

theorem eligible_of_export {published : KnotPublishedDocument}
    (served : catalog.currentForMarkExport host store vault id = .ok (some published)) :
    ∃ publication document head, catalog.publications[id]? = some publication ∧
      KnotPublishCatalog.currentEligible host store vault publication =
        .ok (some (document, head)) ∧
      published = KnotPublishedDocument.ofDocument host.merge id document head := by
  rw [KnotPublishCatalog.currentForMarkExport] at served
  split at served
  next => cases served
  next publication selected =>
    obtain ⟨result, made, rest⟩ := bind_eq_ok_iff.mp served
    rcases result with _ | ⟨document, head⟩
    · cases rest
    · cases rest
      exact ⟨publication, document, head, selected, made, rfl⟩

theorem read_of_getVersion {target : Bytes32} {published : KnotPublishedDocument}
    (served : catalog.getVersion host store vault authority ledger nowMs id target =
      .ok (.document published)) :
    ∃ publication document, catalog.publications[id]? = some publication ∧
      store.documentVersion host vault publication.sourceDocument target = .ok (some document) ∧
      published = KnotPublishedDocument.ofDocument host.merge id document target := by
  rw [KnotPublishCatalog.getVersion] at served
  split at served
  next => cases served
  next publication authorized =>
    obtain ⟨eligible, _, rest⟩ := bind_eq_ok_iff.mp served
    cases eligible with
    | none => cases rest
    | some _ =>
      simp only [Option.isNone_some, Bool.false_eq_true, if_false, bind_eq_ok_iff,
        mapError_eq_ok_iff] at rest
      obtain ⟨found, read, checked⟩ := rest
      cases found with
      | none => cases checked
      | some document =>
        simp only at checked
        split at checked
        next => cases checked
        next =>
          cases checked
          exact ⟨publication, document, selected_of_authorized authorized, read, rfl⟩

end

/-- Publication serves only whole views exactly when, beside a gap, the holder's readable history
still projects and either waits for pending operations or leaves the source nothing to serve. -/
theorem serves_whole_view_iff {Ledger Lapse : Type} (host : SyncHost) (store : KnotSyncStore)
    (vault : SyncVault) (catalog : KnotPublishCatalog) (authority : RetainedAuthority Ledger Lapse)
    (ledger : Ledger) (nowMs : UInt64) (id : PublicationId) (order : List Operation)
    (pending : List PendingCausalOperation)
    (closed : store.closedOperations host = .ok (order, pending))
    (ordered : CausalOrder (store.causal host) order)
    (chained : SingleWriter (store.causal host) order)
    (encodes : ∀ base supersedes document, ∃ bytes,
      host.merge.encodeCbor base supersedes document = .ok bytes) :
    ServesWholeView host store vault catalog authority ledger nowMs id order pending ↔
      (HistoryGap host vault order pending →
        ∀ publication, catalog.publications[id]? = some publication →
          HolderProjects host store vault order ∧ (pending ≠ [] ∨
            ¬ ∃ document head, Servable host store vault order publication.sourceDocument document
              head)) := by
  constructor
  · intro serves gap publication selected
    rw [← currentEligible_eq_none_iff closed ordered chained encodes]
    exact eligible_none_of_withheld selected (serves.withheld gap).2.2
  · intro nothing
    refine ⟨fun gap => withheld_of_eligible_none fun publication selected => ?_,
      fun published served => ?_, fun target published served => ?_, fun published served => ?_⟩
    · rw [currentEligible_eq_none_iff closed ordered chained encodes]
      exact nothing gap publication selected
    · obtain ⟨publication, document, head, selected, eligible, rfl⟩ := eligible_of_getCurrent served
      exact ⟨publication, selected, decoded_of_eligible closed ordered chained eligible⟩
    · obtain ⟨publication, document, selected, read, rfl⟩ := read_of_getVersion served
      obtain ⟨operation, member, rfl, event, decoded, version⟩ :=
        documentVersion_eq_some closed read
      exact ⟨publication, selected, operation, rfl, member, event, document, decoded, version, rfl⟩
    · obtain ⟨publication, document, head, selected, eligible, rfl⟩ := eligible_of_export served
      exact ⟨publication, selected, decoded_of_eligible closed ordered chained eligible⟩

def shortStore : KnotSyncStore := .sample [.sealed 1 10 0, .sealed 2 20 1]

def shortHost : SyncHost := .sample (.ofPairs [(1, 2)]) [.put (.sample "note")]

def openAuthority : RetainedAuthority Unit Unit where
  lapse _ _ := none
  covers _ _ _ := true

def noteCatalog : KnotPublishCatalog := KnotPublishCatalog.publishAs {} 5 "note"

theorem shortStore_gap :
    HistoryGap shortHost .sample [.sealed 1 10 0, .sealed 2 20 1] [] := by
  refine .inr ⟨.sealed 2 20 1, by decide, fun event decoded => ?_⟩
  have fails : (decodeEvent shortHost (.personal .sample) (.sealed 2 20 1)).isOk = false := by
    decide
  rw [decoded] at fails
  cases fails

theorem shortStore_serves :
    ¬ ServesWholeView shortHost shortStore .sample noteCatalog openAuthority () 0 5
      [.sealed 1 10 0, .sealed 2 20 1] [] := by
  intro serves
  have served : noteCatalog.getCurrent shortHost shortStore .sample openAuthority () 0 5 ≠
      .ok .notAvailable := by decide
  exact served (serves.withheld shortStore_gap).1

theorem partial_view_is_served :
    shortStore.closedOperations shortHost = .ok ([.sealed 1 10 0, .sealed 2 20 1], []) ∧
    HistoryGap shortHost .sample [.sealed 1 10 0, .sealed 2 20 1] [] ∧
    ¬ ServesWholeView shortHost shortStore .sample noteCatalog openAuthority () 0 5
      [.sealed 1 10 0, .sealed 2 20 1] [] :=
  ⟨by decide, shortStore_gap, shortStore_serves⟩

theorem serves_whole_view_iff_shortStore :
    ¬ (HistoryGap shortHost .sample [.sealed 1 10 0, .sealed 2 20 1] [] →
      ∀ publication, noteCatalog.publications[(5 : PublicationId)]? = some publication →
        HolderProjects shortHost shortStore .sample [.sealed 1 10 0, .sealed 2 20 1] ∧
          (([] : List PendingCausalOperation) ≠ [] ∨ ¬ ∃ document head,
            Servable shortHost shortStore .sample [.sealed 1 10 0, .sealed 2 20 1]
              publication.sourceDocument document head)) := by
  intro whole
  exact shortStore_serves ((serves_whole_view_iff shortHost shortStore .sample noteCatalog
    openAuthority () 0 5 [.sealed 1 10 0, .sealed 2 20 1] [] (by decide)
    ⟨by decide, ⟨by decide, by decide, by decide⟩⟩ (by unfold SingleWriter; decide)
    (fun _ _ _ => ⟨.empty, rfl⟩)).mpr whole)

section

variable {host : SyncHost} {store : KnotSyncStore} {vault : SyncVault} {order : List Operation}
variable {pending : List PendingCausalOperation} {projection : KnotDocumentProjection}
variable {document : VaultDocument}

theorem eligibility_eq_eligible_iff :
    projection.eligibility document = .eligible ↔ projection.pending = [] ∧
      (∀ conflict ∈ projection.conflicts, conflict.id ≠ document.id) ∧
      (∀ merge ∈ projection.automaticMerges, merge.id ≠ document.id) ∧
      (∃ head, projection.documentHeads[document.id]? = some head) ∧
      isPublishableMediaType document.mediaType = true := by
  rw [KnotDocumentProjection.eligibility, ← Option.isSome_iff_exists]
  grind

/-- A candidate is offered as eligible exactly where a publication of its source serves it, under
the same head. -/
theorem eligible_candidates_are_served (closed : store.closedOperations host = .ok (order, pending))
    (ordered : CausalOrder (store.causal host) order)
    (chained : SingleWriter (store.causal host) order) {found : List KnotPublishCandidate}
    (listed : KnotPublishCatalog.candidates host store vault = .ok found)
    (publication : KnotPublication) (candidate : KnotPublishCandidate) :
    candidate ∈ found ∧ candidate.sourceDocument = publication.sourceDocument ∧
        candidate.eligibility = .eligible ↔
      ∃ document head, KnotPublishCatalog.currentEligible host store vault publication =
          .ok (some (document, head)) ∧
        candidate = ⟨publication.sourceDocument, document.title, document.mediaType, some head,
          .eligible⟩ := by
  simp only [KnotPublishCatalog.candidates, bind_eq_ok_iff, mapError_eq_ok_iff] at listed
  obtain ⟨projection, projected, done⟩ := listed
  cases done
  have served : KnotPublishCatalog.currentEligible host store vault publication =
      .ok (KnotPublishCatalog.eligibleSource projection publication) := by
    rw [KnotPublishCatalog.currentEligible, projected]
    rfl
  simp only [served, Except.ok.injEq, eligibleSource_eq_some_iff, List.mem_map]
  constructor
  · rintro ⟨⟨document, shown, rfl⟩, same, eligible⟩
    obtain ⟨complete, noConflict, noMerge, ⟨head, top⟩, publishable⟩ :=
      eligibility_eq_eligible_iff.mp eligible
    have parts := (KnotSyncStore.projection_ok_iff closed).mp projected
    rw [projectEvents_ok_iff] at parts
    obtain ⟨_, _, turns, settled, settling, rfl⟩ := parts
    have resolves := (resolvesInTurn_iff ordered).mp turns
    obtain ⟨operation, alone, rfl⟩ :=
      alone_of_settled_head ordered chained resolves settling noConflict noMerge top
    have wrote := ((settled_of_alone ordered chained resolves settling alone).2.2.2 document).mp
      ⟨shown, rfl⟩
    have own := (settled_source_iff ordered chained resolves settling).mpr
      ⟨operation, alone, rfl, wrote⟩
    change document.id = publication.sourceDocument at same
    refine ⟨document, operation.hash, ⟨complete, ?_⟩, ?_⟩
    · rw [← same]
      exact ⟨own.1, own.2.1, own.2.2.1, own.2.2.2, publishable⟩
    · congr 1
  · rintro ⟨document, head, ⟨complete, noConflict, noMerge, top, first, publishable⟩, rfl⟩
    have own := List.find?_some first
    rw [beq_iff_eq] at own
    refine ⟨⟨document, List.mem_of_find?_eq_some first, ?_⟩, rfl, rfl⟩
    rw [eligibility_eq_eligible_iff.mpr ⟨complete, own ▸ noConflict, own ▸ noMerge, ⟨head, own ▸ top⟩,
      publishable⟩, own, top]

end

theorem eligible_candidates_are_served_shortStore : ∃ document head,
    KnotPublishCatalog.currentEligible shortHost shortStore .sample ⟨5, "note"⟩ =
      .ok (some (document, head)) := by
  have offered : ∃ found candidate,
      KnotPublishCatalog.candidates shortHost shortStore .sample = .ok found ∧
        candidate ∈ found ∧ candidate.sourceDocument = "note" ∧ candidate.eligibility = .eligible :=
    ⟨_, _, rfl, List.mem_cons_self, by decide⟩
  obtain ⟨found, candidate, listed, eligible⟩ := offered
  have closed : shortStore.closedOperations shortHost =
      .ok ([.sealed 1 10 0, .sealed 2 20 1], []) := by decide
  have ordered : CausalOrder (shortStore.causal shortHost) [.sealed 1 10 0, .sealed 2 20 1] :=
    ⟨by decide, ⟨by decide, by decide, by decide⟩⟩
  have chained : SingleWriter (shortStore.causal shortHost)
      [.sealed 1 10 0, .sealed 2 20 1] := by
    unfold SingleWriter
    decide
  obtain ⟨document, head, served, _⟩ :=
    (eligible_candidates_are_served closed ordered chained listed ⟨5, "note"⟩ candidate).mp eligible
  exact ⟨document, head, served⟩

end KnotEditor
