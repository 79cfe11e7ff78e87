import KnotEditor.Sync.Projectable

/-! Readers that cannot decode everything. A tolerant projection passes over what it cannot read,
except that a resolution it can read may still name what it cannot. -/

namespace KnotEditor

open Fallible KeyedCollections

section

variable {one two : Operation → Option KnotSyncEvent} {causal : CausalIndex} {scope : Bytes32}
variable {order : List Operation}

theorem foldRelations_congr (same : ∀ operation ∈ order, one operation = two operation) :
    foldRelations order one causal scope = foldRelations order two causal scope := by
  rw [foldRelations, replayRelations]
  congr 1
  refine List.foldl_ext _ _ _ fun replay operation member => ?_
  simp only [RelationReplay.step, same operation member]

theorem foldDocuments_congr (same : ∀ operation ∈ order, one operation = two operation) :
    foldDocuments order one causal = foldDocuments order two causal := by
  simp only [foldDocuments]
  generalize ({} : DocumentReplay) = replay
  induction order generalizing replay with
  | nil => rfl
  | cons operation rest ih =>
    rw [List.forall_mem_cons] at same
    have turn : replay.step one causal operation = replay.step two causal operation := by
      simp only [DocumentReplay.step, same.1]
    rw [List.foldlM_cons, List.foldlM_cons, turn]
    exact bind_congr fun next => ih same.2 next

theorem foldRelations_filter_readable :
    foldRelations (order.filter fun operation => (one operation).isSome) one causal scope =
      foldRelations order one causal scope := by
  rw [foldRelations, replayRelations, List.foldl_filter]
  congr 1
  refine List.foldl_ext _ _ _ fun replay operation _ => ?_
  cases read : one operation <;> simp [RelationReplay.step, read]

theorem foldDocuments_filter_readable :
    foldDocuments (order.filter fun operation => (one operation).isSome) one causal =
      foldDocuments order one causal := by
  rw [foldDocuments, List.foldlM_filter]
  congr 1
  funext replay operation
  cases read : one operation
  · simp only [DocumentReplay.step, read]
    rfl
  · rfl

theorem projectEvents_filter_readable {host : MergeHost} {pending : List PendingCausalOperation}
    {undecodable : List KnotRejectedRelationV1}
    (reads : ∀ operation ∈ order, (one operation).isSome = true → two operation = one operation) :
    projectEvents host (order.filter fun operation => (one operation).isSome) two causal scope
        pending undecodable =
      projectEvents host order one causal scope pending undecodable := by
  have same : ∀ operation ∈ order.filter fun operation => (one operation).isSome,
      two operation = one operation := by
    intro operation found
    obtain ⟨member, readable⟩ := List.mem_filter.mp found
    exact reads operation member readable
  simp only [projectEvents]
  rw [foldRelations_congr same, foldDocuments_congr same, foldRelations_filter_readable,
    foldDocuments_filter_readable]

theorem admissible_of_reader_iff (distinct : (order.map Operation.hash).Nodup)
    (reads : ∀ operation ∈ order, (one operation).isSome = true → two operation = one operation)
    {resolution : Bytes32} {id : String} {supersedes : List Bytes32}
    {document : Option VaultDocument}
    (admissible : Admissible causal (eventDocumentsOf two order) resolution id supersedes
      document) :
    Admissible causal (eventDocumentsOf one order) resolution id supersedes document ↔
      ∀ named ∈ order, named.hash ∈ supersedes → (one named).isSome = true := by
  constructor
  · intro still named member listed
    have found := (still.targets named.hash listed).1
    rw [eventDocumentsOf] at found
    rw [getElem?_collect distinct] at found
    obtain ⟨writer, writerFound, same, wrote⟩ := found
    have identified := hashesIdentify_of_distinct distinct writer writerFound named member same
    subst identified
    cases read : one writer with
    | none => simp [writtenId, written, read] at wrote
    | some event => rfl
  · intro readable
    refine ⟨admissible.named, admissible.bounded, admissible.chosen, admissible.distinct,
      fun target listed => ?_⟩
    obtain ⟨found, before⟩ := admissible.targets target listed
    refine ⟨?_, before⟩
    rw [eventDocumentsOf] at found ⊢
    rw [getElem?_collect distinct] at found ⊢
    obtain ⟨writer, member, rfl, wrote⟩ := found
    refine ⟨writer, member, rfl, ?_⟩
    rw [← wrote]
    simp only [writtenId, written, reads writer member (readable writer member listed)]

end

def Readable (host : SyncHost) (cipher : KnotSyncCipher) (operation : Operation) : Prop :=
  ∃ event, decodeEvent host cipher operation = .ok event

theorem readable_iff {host : SyncHost} {cipher : KnotSyncCipher} {operation : Operation} :
    Readable host cipher operation ↔ (readableEvents host cipher operation).isSome = true := by
  rw [Readable, readableEvents]
  cases decodeEvent host cipher operation <;> simp [Except.toOption]

theorem reports_unreadable {host : SyncHost} {cipher : KnotSyncCipher} {store : KnotSyncStore}
    {order : List Operation} {pending : List PendingCausalOperation}
    {strictness : KnotProjectionStrictness} {projection : KnotDocumentProjection}
    (closed : store.closedOperations host = .ok (order, pending))
    (projected : store.projectionWithCipherAndStrictness host cipher strictness =
      .ok projection) :
    ∀ operation ∈ order, ¬ Readable host cipher operation →
      ∃ record ∈ projection.rejectedRelations, record.operation = operation.hash := by
  intro operation member unread
  rw [KnotSyncStore.projection_ok_iff closed, projectEvents_ok_iff] at projected
  obtain ⟨_, _, _, settled, _, rfl⟩ := projected
  cases decoded : decodeEvent host cipher operation with
  | ok event => exact absurd ⟨event, decoded⟩ unread
  | error error =>
    exact ⟨undecodableRecord operation error, List.mem_append_right _
      ((mem_undecodableRecords_iff _).mpr ⟨operation, member, error, decoded, rfl⟩), rfl⟩

/-- Where the whole history projects, a peer that reads part of it projects that part and reports
the rest, exactly when no resolution it reads names an operation it does not. -/
theorem tolerant_projection_iff (host : SyncHost)
    (eventFromJson : ByteArray → Except String KnotSyncEvent) (store : KnotSyncStore)
    (holder peer : KnotSyncCipher) (order : List Operation) (pending : List PendingCausalOperation)
    (closed : store.closedOperations host = .ok (order, pending))
    (ordered : CausalOrder (store.causal host) order)
    (encodes : ∀ base supersedes document, ∃ bytes,
      host.merge.encodeCbor base supersedes document = .ok bytes)
    (whole : ∃ projection,
      store.projectionWithCipherAndStrictness host holder .strict = .ok projection)
    (fits : peer.profile = holder.profile)
    (reads : ∀ operation ∈ order, ∀ event,
      decodeEvent { host with eventFromJson } peer operation = .ok event →
        decodeEvent host holder operation = .ok event) :
    (∃ projection,
      store.projectionWithCipherAndStrictness { host with eventFromJson } peer .tolerant =
        .ok projection ∧
      (∀ operation ∈ order, ¬ Readable { host with eventFromJson } peer operation →
        ∃ record ∈ projection.rejectedRelations, record.operation = operation.hash) ∧
      projectEvents host.merge
          (order.filter fun operation =>
            (readableEvents { host with eventFromJson } peer operation).isSome)
          (readableEvents host holder) (store.causal host) store.policy.spaceId pending
          (undecodableRecords { host with eventFromJson } peer order) = .ok projection) ↔
      ∀ operation ∈ order, ∀ id supersedes document,
        decodeEvent { host with eventFromJson } peer operation =
            .ok (.resolve id supersedes document) →
          ∀ named ∈ order, named.hash ∈ supersedes →
            Readable { host with eventFromJson } peer named := by
  have agrees : ∀ operation ∈ order,
      (readableEvents { host with eventFromJson } peer operation).isSome = true →
      readableEvents host holder operation =
        readableEvents { host with eventFromJson } peer operation := by
    intro operation member readable
    obtain ⟨event, read⟩ := Option.isSome_iff_exists.mp readable
    rw [read]
    exact readableEvents_eq_some_iff.mpr
      (reads operation member event (readableEvents_eq_some_iff.mp read))
  obtain ⟨required, _, turns⟩ := (KnotSyncStore.projects_iff closed encodes).mp whole
  have peerClosed : store.closedOperations { host with eventFromJson } = .ok (order, pending) :=
    closed
  have projects : (∃ projection, store.projectionWithCipherAndStrictness
      { host with eventFromJson } peer .tolerant = .ok projection) ↔
        ResolvesInTurn (readableEvents { host with eventFromJson } peer) (store.causal host)
          order := by
    rw [KnotSyncStore.projects_iff peerClosed encodes]
    simp only [fits, required, reduceCtorEq, false_implies, true_and]
    rfl
  have admissible := (resolvesInTurn_iff ordered).mp turns
  constructor
  · rintro ⟨projection, projected, _, _⟩ operation member id supersedes document decoded named
      namedFound listed
    have peerAdmissible := (resolvesInTurn_iff ordered).mp (projects.mp ⟨projection, projected⟩)
    have full := admissible operation member id supersedes document
      (readableEvents_eq_some_iff.mpr (reads operation member _ decoded))
    have partly := peerAdmissible operation member id supersedes document
      (readableEvents_eq_some_iff.mpr decoded)
    exact readable_iff.mpr ((admissible_of_reader_iff ordered.distinct agrees full).mp partly named
      namedFound listed)
  · intro calm
    have peerAdmissible : ResolvesAdmissible (readableEvents { host with eventFromJson } peer)
        (store.causal host) order := by
      intro operation member id supersedes document read
      have decoded := readableEvents_eq_some_iff.mp read
      have full := admissible operation member id supersedes document
        (readableEvents_eq_some_iff.mpr (reads operation member _ decoded))
      refine (admissible_of_reader_iff ordered.distinct agrees full).mpr ?_
      intro named namedFound listed
      exact readable_iff.mp (calm operation member id supersedes document decoded named namedFound
        listed)
    obtain ⟨projection, projected⟩ := projects.mpr ((resolvesInTurn_iff ordered).mpr peerAdmissible)
    refine ⟨projection, projected, reports_unreadable peerClosed projected, ?_⟩
    rw [projectEvents_filter_readable agrees]
    exact ((KnotSyncStore.projection_ok_iff peerClosed).mp projected).2.2

def gapStore : KnotSyncStore := .sample [.sealed 1 10 0, .sealed 2 20 1]

def gapHost : SyncHost := .sample (.ofPairs [(1, 2)])
  [.put (.sample "note"), .resolve "note" [.filled 1] (some (.sample "note"))]

def olderReader (bytes : ByteArray) : Except String KnotSyncEvent :=
  if bytes = ⟨#[0]⟩ then .error "unknown variant" else gapHost.eventFromJson bytes

theorem olderReader_reads (operation : Operation) (event : KnotSyncEvent)
    (decoded : decodeEvent { gapHost with eventFromJson := olderReader } (.personal .sample)
      operation = .ok event) :
    decodeEvent gapHost (.personal .sample) operation = .ok event := by
  rw [decodeEvent] at decoded ⊢
  cases body : operation.body with
  | none =>
    rw [body] at decoded
    cases decoded
  | some bytes =>
    rw [body] at decoded
    simp only [bind_eq_ok_iff, mapError_eq_ok_iff] at decoded ⊢
    obtain ⟨plaintext, opened, read⟩ := decoded
    refine ⟨plaintext, opened, ?_⟩
    rw [olderReader] at read
    split at read
    · cases read
    · exact read

theorem gapStore_projects : ∃ projection, gapStore.projectionWithCipherAndStrictness gapHost
    (.personal .sample) .strict = .ok projection :=
  isOk_iff.mp (by decide +kernel)

theorem gapStore_fails_partly : ¬ ∃ projection, gapStore.projectionWithCipherAndStrictness
    { gapHost with eventFromJson := olderReader } (.personal .sample) .tolerant =
      .ok projection :=
  mt isOk_iff.mpr (by decide)

theorem gapStore_does_not_project_partly :
    (∃ projection, gapStore.projectionWithCipherAndStrictness gapHost (.personal .sample)
      .strict = .ok projection) ∧
    (∀ operation event, decodeEvent { gapHost with eventFromJson := olderReader }
      (.personal .sample) operation = .ok event →
        decodeEvent gapHost (.personal .sample) operation = .ok event) ∧
    ¬ ∃ projection, gapStore.projectionWithCipherAndStrictness
      { gapHost with eventFromJson := olderReader } (.personal .sample) .tolerant =
        .ok projection :=
  ⟨gapStore_projects, olderReader_reads, gapStore_fails_partly⟩

theorem tolerant_projection_iff_gapStore :
    ¬ ∀ operation ∈ [Operation.sealed 1 10 0, .sealed 2 20 1], ∀ id supersedes document,
      decodeEvent { gapHost with eventFromJson := olderReader } (.personal .sample) operation =
          .ok (.resolve id supersedes document) →
        ∀ named ∈ [Operation.sealed 1 10 0, .sealed 2 20 1], named.hash ∈ supersedes →
          Readable { gapHost with eventFromJson := olderReader } (.personal .sample) named := by
  intro calm
  obtain ⟨projection, projected, _⟩ := (tolerant_projection_iff gapHost olderReader gapStore
    (.personal .sample) (.personal .sample) [.sealed 1 10 0, .sealed 2 20 1] [] (by decide)
    ⟨by decide, ⟨by decide, by decide, by decide⟩⟩ (fun _ _ _ => ⟨.empty, rfl⟩) gapStore_projects
    rfl (fun operation _ event => olderReader_reads operation event)).mpr calm
  exact gapStore_fails_partly ⟨projection, projected⟩

end KnotEditor
