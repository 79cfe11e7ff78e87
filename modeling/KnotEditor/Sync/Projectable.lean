import KnotEditor.Sync.DocumentReplay
import KnotEditor.Sync.Settlement

/-! When a projection succeeds: its closed events decode as far as its strictness demands, and every
resolution it reads is admissible. -/

namespace KnotEditor

open Fallible

section

variable (host : SyncHost) (cipher : KnotSyncCipher)

def Decodes (order : List Operation) : Prop :=
  ∀ operation ∈ order, ∃ event, decodeEvent host cipher operation = .ok event

def undecodableRecords (order : List Operation) : List KnotRejectedRelationV1 :=
  order.filterMap fun operation =>
    match decodeEvent host cipher operation with
    | .ok _ => none
    | .error error => some (undecodableRecord operation error)

end

section

variable {host : SyncHost} {cipher : KnotSyncCipher} {order : List Operation}
variable {operation : Operation}

theorem readableEvents_eq_some_iff {event : KnotSyncEvent} :
    readableEvents host cipher operation = some event ↔
      decodeEvent host cipher operation = .ok event :=
  toOption_eq_some_iff

theorem undecodableRecords_cons_readable {event : KnotSyncEvent}
    (decoded : decodeEvent host cipher operation = .ok event) (rest : List Operation) :
    undecodableRecords host cipher (operation :: rest) = undecodableRecords host cipher rest :=
  List.filterMap_cons_none (by rw [decoded])

theorem undecodableRecords_cons_unreadable {error : KnotSyncError}
    (failed : decodeEvent host cipher operation = .error error) (rest : List Operation) :
    undecodableRecords host cipher (operation :: rest) =
      undecodableRecord operation error :: undecodableRecords host cipher rest :=
  List.filterMap_cons_some (by rw [failed])

theorem decodeClosed_ok_iff (strictness : KnotProjectionStrictness)
    {records : List KnotRejectedRelationV1} :
    decodeClosed host cipher strictness order = .ok records ↔
      (strictness = .strict → Decodes host cipher order) ∧
        records = undecodableRecords host cipher order := by
  induction order generalizing records with
  | nil => simp [decodeClosed, Decodes, undecodableRecords, eq_comm]
  | cons operation rest ih =>
    have decodesCons : Decodes host cipher (operation :: rest) ↔
        (∃ event, decodeEvent host cipher operation = .ok event) ∧ Decodes host cipher rest := by
      simp only [Decodes, List.forall_mem_cons]
    rw [decodeClosed, decodesCons]
    cases decoded : decodeEvent host cipher operation with
    | ok event =>
      rw [undecodableRecords_cons_readable decoded]
      simp only [Except.ok.injEq, exists_eq', true_and]
      exact ih
    | error error =>
      rw [undecodableRecords_cons_unreadable decoded]
      simp only [reduceCtorEq, exists_false, false_and, imp_false]
      cases strictness with
      | strict => simp
      | tolerant =>
        have tail : decodeClosed host cipher .tolerant rest =
            .ok (undecodableRecords host cipher rest) := by
          rw [ih]
          exact ⟨fun strict => absurd strict (by decide), rfl⟩
        rw [tail]
        simp [bind, Except.bind, pure, Except.pure, eq_comm]

theorem mem_undecodableRecords_iff (record : KnotRejectedRelationV1) :
    record ∈ undecodableRecords host cipher order ↔
      ∃ operation ∈ order, ∃ error, decodeEvent host cipher operation = .error error ∧
        record = undecodableRecord operation error := by
  rw [undecodableRecords, List.mem_filterMap]
  refine exists_congr fun operation => and_congr_right fun _ => ?_
  cases decodeEvent host cipher operation <;> simp [eq_comm]

end

section

variable {host : MergeHost} {events : Operation → Option KnotSyncEvent} {causal : CausalIndex}
variable {scope : Bytes32} {order : List Operation} {pending : List PendingCausalOperation}
variable {undecodable : List KnotRejectedRelationV1} {projection : KnotDocumentProjection}

theorem projectEvents_ok_iff :
    projectEvents host order events causal scope pending undecodable = .ok projection ↔
      ResolvesInTurn events causal order ∧
        ∃ settled, settleDocuments host causal (replayDocuments events causal order) =
          .ok settled ∧ projection = {
            documents := settled.documents
            conflicts := settled.conflicts
            automaticMerges := settled.automaticMerges
            pending
            documentHeads := settled.documentHeads
            relations := (foldRelations order events causal scope).relations
            rejectedRelations := (foldRelations order events causal scope).rejected ++ undecodable
            unverifiedRelations := (foldRelations order events causal scope).unverified
            predicates := (foldRelations order events causal scope).catalog } := by
  simp only [projectEvents, bind_eq_ok_iff, foldDocuments_eq_ok_iff]
  constructor
  · rintro ⟨_, ⟨turns, rfl⟩, settled, settles, made⟩
    cases made
    exact ⟨turns, settled, settles, rfl⟩
  · rintro ⟨turns, settled, settles, rfl⟩
    exact ⟨_, ⟨turns, rfl⟩, settled, settles, rfl⟩

end

namespace KnotSyncStore

section

variable {store : KnotSyncStore} {host : SyncHost} {cipher : KnotSyncCipher}
variable {strictness : KnotProjectionStrictness} {order : List Operation}
variable {pending : List PendingCausalOperation} {projection : KnotDocumentProjection}

theorem requireCipher_ok_iff :
    store.requireCipher cipher = .ok () ↔ cipher.profile = store.policy.encryption := by
  rw [requireCipher]
  split <;> simp_all

theorem projection_ok_iff (closed : store.closedOperations host = .ok (order, pending)) :
    store.projectionWithCipherAndStrictness host cipher strictness = .ok projection ↔
      cipher.profile = store.policy.encryption ∧
        (strictness = .strict → Decodes host cipher order) ∧
        projectEvents host.merge order (readableEvents host cipher) (store.causal host)
          store.policy.spaceId pending (undecodableRecords host cipher order) = .ok projection := by
  rw [projectionWithCipherAndStrictness, closed]
  simp only [bind_eq_ok_iff, decodeClosed_ok_iff, ← requireCipher_ok_iff, Except.ok.injEq]
  constructor
  · rintro ⟨_, required, _, rfl, _, ⟨decodes, rfl⟩, projected⟩
    exact ⟨required, decodes, projected⟩
  · rintro ⟨required, decodes, projected⟩
    exact ⟨_, required, _, rfl, _, ⟨decodes, rfl⟩, projected⟩

theorem closed_of_projection
    (projected : store.projectionWithCipherAndStrictness host cipher strictness =
      .ok projection) :
    ∃ order pending, store.closedOperations host = .ok (order, pending) ∧
      projection.pending = pending := by
  obtain ⟨⟨order, pending⟩, closed⟩ : ∃ closed, store.closedOperations host = .ok closed := by
    rw [projectionWithCipherAndStrictness] at projected
    obtain ⟨_, _, closed, read, _⟩ := by simpa only [bind_eq_ok_iff] using projected
    exact ⟨closed, read⟩
  obtain ⟨_, _, folded⟩ := (projection_ok_iff closed).mp projected
  obtain ⟨_, settled, _, rfl⟩ := projectEvents_ok_iff.mp folded
  exact ⟨order, pending, closed, rfl⟩

theorem projection_relations (closed : store.closedOperations host = .ok (order, pending))
    (projected : store.projectionWithCipherAndStrictness host cipher strictness =
      .ok projection) :
    let fold := foldRelations order (readableEvents host cipher) (store.causal host)
      store.policy.spaceId
    projection.relations = fold.relations ∧ projection.unverifiedRelations = fold.unverified ∧
      projection.rejectedRelations = fold.rejected ++ undecodableRecords host cipher order ∧
      projection.predicates = fold.catalog := by
  rw [projection_ok_iff closed, projectEvents_ok_iff] at projected
  obtain ⟨_, _, _, settled, _, rfl⟩ := projected
  exact ⟨rfl, rfl, rfl, rfl⟩

theorem projects_iff (closed : store.closedOperations host = .ok (order, pending))
    (encodes : ∀ base supersedes document, ∃ bytes,
      host.merge.encodeCbor base supersedes document = .ok bytes) :
    (∃ projection, store.projectionWithCipherAndStrictness host cipher strictness =
      .ok projection) ↔
      cipher.profile = store.policy.encryption ∧
        (strictness = .strict → Decodes host cipher order) ∧
        ResolvesInTurn (readableEvents host cipher) (store.causal host) order := by
  simp only [projection_ok_iff closed, projectEvents_ok_iff, exists_and_left]
  refine and_congr_right fun _ => and_congr_right fun _ => and_iff_left_of_imp fun _ => ?_
  obtain ⟨settled, settles⟩ : ∃ settled, settleDocuments host.merge (store.causal host)
      (replayDocuments (readableEvents host cipher) (store.causal host) order) = .ok settled :=
    settleDocuments_total encodes
  exact ⟨_, settled, settles, rfl⟩

end

end KnotSyncStore

theorem mem_operationsAt {records : List StoredKnotOperation} {order : List Nat}
    {operation : Operation} (member : operation ∈ operationsAt records order) :
    ∃ record ∈ records, record.operation = operation := by
  rcases List.mem_filterMap.mp member with ⟨index, _, found⟩
  rcases Option.map_eq_some_iff.mp found with ⟨record, located, same⟩
  exact ⟨record, List.mem_of_getElem? located, same⟩

theorem operationsAt_range (records : List StoredKnotOperation) :
    operationsAt records (List.range records.length) =
      records.map StoredKnotOperation.operation := by
  induction records using List.reverseRecOn with
  | nil => rfl
  | append_singleton front last ih =>
    rw [List.length_append, List.length_singleton, List.range_succ, List.map_append, ← ih]
    simp only [operationsAt, List.filterMap_append]
    congr 1
    · apply List.filterMap_congr
      intro index member
      rw [List.getElem?_append_left (List.mem_range.mp member)]
    · simp

theorem KnotSyncStore.closedOperations_range {host : SyncHost}
    (closes : ∀ entries, host.causalProjection entries =
      .ok { order := List.range entries.length, pending := [] }) (store : KnotSyncStore) :
    store.closedOperations host = .ok (store.records.map StoredKnotOperation.operation, []) := by
  have length : store.entries.length = store.records.length := by
    simp [KnotSyncStore.entries, causalEntries]
  rw [KnotSyncStore.closedOperations, closes, ← operationsAt_range, ← length]
  rfl

def MergeHost.sample : MergeHost where
  diffSlices _ _ := []
  parse _ := []
  encodeCbor _ _ _ := .ok .empty
  blake3 _ := .filled 0

def CompositionHost.sample : CompositionHost where
  Scene := Unit
  Recipe := Unit
  parseItem _ := .error "no item"
  parseOrganization _ := .error "no organization"
  sceneIsMetreGrid _ := true
  validateScene _ := .ok ()
  sceneJsonLength _ := .ok 0
  maxSceneInputBytes := 0
  validateRecipe _ := .ok ()

def eventAt (vocabulary : List KnotSyncEvent) (bytes : ByteArray) : Except String KnotSyncEvent :=
  match bytes.data.toList with
  | [key] => (vocabulary[key.toNat]?).elim (.error "unknown variant") .ok
  | _ => .error "trailing bytes"

/-- A host for small stores: everything retained is closed, in the order it was stored, and the
index answers from a table. -/
def SyncHost.sample (causal : CausalIndex) (vocabulary : List KnotSyncEvent) : SyncHost where
  merge := .sample
  composition := .sample
  causalIndex _ := causal
  causalProjection entries := .ok { order := List.range entries.length, pending := [] }
  observedFrontier entries := .ok (entries.map fun entry => entry.operation.hash)
  authorHead _ _ _ := .ok (0, none)
  validateCausalMetadata _ _ := .ok ()
  storeOperation records operation logId := .ok (records ++ [{ operation, logId }])
  eventToJson event := .ok ⟨#[UInt8.ofNat (vocabulary.idxOf event)]⟩
  eventFromJson := eventAt vocabulary
  encodeEnvelope _ := .error "no envelope"
  decodeEnvelope _ := .error "no envelope"
  verifyingKey seed := seed
  buildHeader seed _ seqNum backlink extensions :=
    { verifyingKey := seed, seqNum, backlink, extensions, encoded := .empty }
  headerHash header := header.verifyingKey
  clock := none

def SyncVault.sample : SyncVault where
  sealSyncPayload _ plaintext := .ok plaintext
  unsealSyncPayload _ ciphertext := .ok ciphertext

def KnotSyncStore.sample (operations : List Operation) : KnotSyncStore where
  records := operations.map fun operation => { operation, logId := 0 }
  policy := {
    spaceId := .filled 0
    writers := [.filled 10, .filled 20]
    encryption := .personalVaultV1 }

end KnotEditor
