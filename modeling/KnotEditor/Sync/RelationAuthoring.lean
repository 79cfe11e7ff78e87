import KnotEditor.Sync.AuthoringSafety
import KnotEditor.Sync.Diagnostics

/-! Relation authoring agrees with replay: what the writer's checks accept on the observed frontier,
every replay of the extended history accepts in its turn. -/

namespace KnotEditor

open Accumulations Fallible KeyedCollections

section

variable {host : SyncHost} {cipher : KnotSyncCipher} {causal index : CausalIndex}
variable {parents : List Bytes32} {hash scope : Bytes32} {order : List Operation}

theorem documentVersions_ok_iff {documents : HashMap VaultDocument} :
    documentVersions host cipher order = .ok documents ↔
      Decodes host cipher order ∧
        documents = collect Operation.hash (captured (readableEvents host cipher)) order := by
  rw [documentVersions]
  induction order using List.reverseRecOn generalizing documents with
  | nil => simp [Decodes, collect, pure, Except.pure, eq_comm]
  | append_singleton front last ih =>
    have decodesLast : Decodes host cipher (front ++ [last]) ↔
        Decodes host cipher front ∧ ∃ event, decodeEvent host cipher last = .ok event := by
      simp only [Decodes, List.forall_mem_append, List.forall_mem_singleton]
    rw [foldlM_append_singleton_eq_ok_iff, decodesLast, collect_append_singleton]
    simp only [ih, bind_eq_ok_iff]
    constructor
    · rintro ⟨_, ⟨decodes, rfl⟩, event, decoded, made⟩
      refine ⟨⟨decodes, event, decoded⟩, ?_⟩
      have read := readableEvents_eq_some_iff.mpr decoded
      simp only [captured, read, Option.bind_some]
      cases document : capturedDocument event with
      | none =>
        rw [document] at made
        cases made
        rfl
      | some document' =>
        rw [document] at made
        cases made
        rfl
    · rintro ⟨⟨decodes, event, decoded⟩, rfl⟩
      refine ⟨_, ⟨decodes, rfl⟩, event, decoded, ?_⟩
      have read := readableEvents_eq_some_iff.mpr decoded
      simp only [captured, read, Option.bind_some]
      cases capturedDocument event <;> rfl

theorem localRelationFold_ok_iff {fold : RelationFold} :
    localRelationFold host cipher order causal scope = .ok fold ↔
      Decodes host cipher order ∧
        fold = foldRelations order (readableEvents host cipher) causal scope := by
  simp only [localRelationFold, bind_eq_ok_iff, decodeClosed_ok_iff, true_implies]
  constructor
  · rintro ⟨_, ⟨decodes, _⟩, made⟩
    cases made
    exact ⟨decodes, rfl⟩
  · rintro ⟨decodes, rfl⟩
    exact ⟨_, ⟨decodes, rfl⟩, rfl⟩

theorem localPredicateCatalog_ok_iff {catalog : KnotPredicateCatalogV1} :
    localPredicateCatalog host cipher order causal scope = .ok catalog ↔
      Decodes host cipher order ∧
        catalog = (foldRelations order (readableEvents host cipher) causal scope).catalog := by
  simp only [localPredicateCatalog, bind_eq_ok_iff, localRelationFold_ok_iff]
  constructor
  · rintro ⟨_, ⟨decodes, rfl⟩, made⟩
    cases made
    exact ⟨decodes, rfl⟩
  · rintro ⟨decodes, rfl⟩
    exact ⟨_, ⟨decodes, rfl⟩, rfl⟩

theorem validateLocalPredicate_ok_iff (catalog : KnotPredicateCatalogV1) (id : Bytes32)
    (observes : ∀ earlier, index.happensBefore earlier hash =
      frontierObserves causal parents earlier) :
    validateLocalPredicate catalog causal parents id = .ok () ↔
      validateAssertedPredicate catalog index (.defined id) hash = .ok () := by
  simp only [validateLocalPredicate, validateAssertedPredicate, observes]
  cases catalog.rootOf id with
  | none => simp
  | some root =>
    simp only
    split
    · simp
    · split <;> simp

theorem validateLocalEndpoint_ok_iff (documents : HashMap VaultDocument) (role : String)
    (endpoint : KnotRelationEndpointV1)
    (observes : ∀ earlier, index.happensBefore earlier hash =
      frontierObserves causal parents earlier) :
    validateLocalEndpoint documents causal parents role endpoint = .ok () ↔
      validateCapturedEndpoint hash documents index role endpoint = .ok () := by
  simp only [validateLocalEndpoint, validateCapturedEndpoint, observes]
  cases documents[endpoint.documentHead]? with
  | none => simp
  | some document =>
    simp only
    split
    · simp
    · split
      · simp
      · exact mapError_eq_ok_iff

theorem validateLocalAssertion_ok {predicate : KnotPredicateRefV1}
    {subject object : KnotRelationEndpointV1} {assertion : KnotRelationAssertionV1}
    (observes : ∀ earlier, index.happensBefore earlier hash =
      frontierObserves causal parents earlier)
    (named : assertion.predicate = predicate ∧ assertion.subject = subject ∧
      assertion.object = object ∧ assertion.operation = hash)
    (valid : validateLocalAssertion host order cipher causal parents scope predicate subject object =
      .ok ()) :
    (replayRelations order (readableEvents host cipher) causal scope).doubt index assertion =
      some none := by
  obtain ⟨rfl, rfl, rfl, rfl⟩ := named
  rw [doubt_eq_none_iff, judgeAssertion_ok_iff, replayRelations_documents]
  have captures {documents : HashMap VaultDocument}
      (read : documentVersions host cipher order = .ok documents)
      (subject : validateLocalEndpoint documents causal parents "subject" assertion.subject =
        .ok ())
      (object : validateLocalEndpoint documents causal parents "object" assertion.object = .ok ()) :
      validateCapturedEndpoint assertion.operation
          (collect Operation.hash (captured (readableEvents host cipher)) order) index "subject"
          assertion.subject = .ok () ∧
        validateCapturedEndpoint assertion.operation
          (collect Operation.hash (captured (readableEvents host cipher)) order) index "object"
          assertion.object = .ok () := by
    rw [(documentVersions_ok_iff.mp read).2, validateLocalEndpoint_ok_iff _ _ _ observes] at subject
    rw [(documentVersions_ok_iff.mp read).2, validateLocalEndpoint_ok_iff _ _ _ observes] at object
    exact ⟨subject, object⟩
  rw [validateLocalAssertion] at valid
  cases predicate : assertion.predicate with
  | defined id =>
    simp only [predicate, bind_eq_ok_iff, mapError_eq_ok_iff,
      localPredicateCatalog_ok_iff] at valid
    obtain ⟨_, payload, _, ⟨_, rfl⟩, _, defined, documents, read, _, subject, object⟩ := valid
    refine ⟨payload, ?_, captures read subject object⟩
    exact (validateLocalPredicate_ok_iff _ id observes).mp defined
  | core name =>
    simp only [predicate, bind_eq_ok_iff, mapError_eq_ok_iff] at valid
    obtain ⟨_, payload, documents, read, _, subject, object⟩ := valid
    exact ⟨payload, rfl, captures read subject object⟩
  | unrecognized label =>
    simp only [predicate, bind_eq_ok_iff, mapError_eq_ok_iff] at valid
    obtain ⟨_, payload, documents, read, _, subject, object⟩ := valid
    exact ⟨payload, rfl, captures read subject object⟩

end

section

variable {host : SyncHost} {cipher : KnotSyncCipher} {store accepted : KnotSyncStore}
variable {events : Operation → Option KnotSyncEvent} {scope : Bytes32} {operation : Operation}
variable {before after order : List Operation} {assertion : KnotRelationAssertionV1}

theorem doubt_causal_congr {one two : CausalIndex} (replay : RelationReplay)
    (agrees : ∀ earlier, one.happensBefore earlier assertion.operation =
      two.happensBefore earlier assertion.operation) :
    replay.doubt one assertion = replay.doubt two assertion := by
  simp only [RelationReplay.doubt, judgeAssertion, validateAssertedPredicate,
    validateRelationCapture, validateCapturedEndpoint, agrees]

theorem Placement.replay_eq (placed : Placement host store accepted operation before after)
    {part : List Operation} (included : ∀ other ∈ part, other ∈ before ++ after) :
    replayRelations part events (accepted.causal host) scope =
      replayRelations part events (store.causal host) scope :=
  replayRelations_causal_congr fun other member earlier =>
    placed.unchanged earlier other.hash (placed.hash_ne (included other member))

theorem Placement.agreesBefore (placed : Placement host store accepted operation before after) :
    AgreesBefore (accepted.causal host) operation.hash
      (replayRelations before events (accepted.causal host) scope)
      (replayRelations (before ++ after) events (store.causal host) scope) := by
  rw [placed.replay_eq fun other member => List.mem_append_left after member]
  refine agreesBefore_prefix placed.localOrder.distinct fun observed member precedes => ?_
  exact placed.ordered.mem_front (mem_extended_iff.mpr (.inr member)) precedes

theorem Placement.withdrawals_eq_nil
    (placed : Placement host store accepted operation before after)
    (asserts : asserted events scope operation = some assertion) :
    withdrawals events (accepted.causal host) assertion after = [] := by
  obtain ⟨own, _, _⟩ := asserted_signed asserts
  rw [withdrawals, List.filterMap_eq_nil_iff]
  intro later _
  rw [withdrawalFrom, Option.bind_eq_none_iff]
  intro target _
  rw [if_neg]
  rintro ⟨_, _, observed⟩
  rw [own, placed.leaf] at observed
  cases observed

theorem Placement.files_assertion
    (placed : Placement host store accepted operation before after)
    (asserts : asserted events scope operation = some assertion)
    (judged : (replayRelations (before ++ after) events (store.causal host) scope).doubt
      (accepted.causal host) assertion = some none) :
    (replayRelations before events (accepted.causal host) scope).doubt (accepted.causal host)
        assertion = some none ∧
      ⟨assertion, none⟩ ∈ (foldRelations (before ++ operation :: after) events
        (accepted.causal host) scope).entries := by
  have agrees : AgreesBefore (accepted.causal host) operation.hash
      (replayRelations before events (accepted.causal host) scope)
      (replayRelations (before ++ after) events (store.causal host) scope) := placed.agreesBefore
  rw [← asserted_operation asserts] at agrees
  have turn := agrees.valid_iff.mpr judged
  refine ⟨turn, ?_⟩
  rw [foldRelations, (replayRelations_entries events _ scope placed.ordered.distinct).2]
  have filed := Filed.intro before operation after assertion none rfl asserts turn
  obtain ⟨_, _, bare⟩ := asserted_signed asserts
  rw [placed.withdrawals_eq_nil asserts, ← bare] at filed
  exact filed

theorem Placement.files_retraction
    (placed : Placement host store accepted operation before after) {target : Bytes32}
    (withdraws : withdrawn events operation = some target) {entry : LedgerEntry}
    (member : entry ∈ (foldRelations (before ++ after) events (store.causal host) scope).entries)
    (named : entry.assertion.id = target) (author : entry.assertion.author = operation.author)
    (observed : frontierObserves (store.causal host) operation.header.extensions.parents target =
      true) :
    ∃ attached ∈ (foldRelations (before ++ operation :: after) events (accepted.causal host)
        scope).entries,
      attached.assertion.id = target ∧ attached.assertion.author = operation.author ∧
        attached.doubt = entry.doubt ∧ retractionBy operation ∈ attached.assertion.retractions := by
  rw [foldRelations] at member ⊢
  rw [(replayRelations_entries events _ scope placed.localOrder.distinct).2] at member
  simp only [(replayRelations_entries events _ scope placed.ordered.distinct).2]
  obtain ⟨front, asserter, back, assertion, doubt, split, asserts, judged⟩ := member
  obtain ⟨own, _, _⟩ := asserted_signed asserts
  have precedes : (accepted.causal host).happensBefore asserter.hash operation.hash = true := by
    rw [placed.observes, ← own, named]
    exact observed
  have asserterFound : asserter ∈ before ++ after := by rw [split]; simp
  have early : asserter ∈ before :=
    placed.ordered.mem_front (mem_extended_iff.mpr (.inr asserterFound)) precedes
  obtain ⟨ahead, between, rfl⟩ := List.append_of_mem early
  have localOrder := placed.localOrder
  rw [List.append_assoc, List.cons_append] at localOrder split
  obtain ⟨rfl, _, rfl⟩ := split_unique localOrder.distinct split rfl
  have turn : (replayRelations ahead events (accepted.causal host) scope).doubt
      (accepted.causal host) assertion = some doubt := by
    rw [placed.replay_eq fun other found => by simp [found], ← judged]
    refine doubt_causal_congr _ fun earlier => ?_
    rw [asserted_operation asserts]
    exact placed.unchanged earlier asserter.hash (placed.hash_ne (by simp))
  have whole : (ahead ++ asserter :: between) ++ operation :: after =
      ahead ++ asserter :: (between ++ operation :: after) := by simp
  refine ⟨_, Filed.intro ahead asserter (between ++ operation :: after) assertion doubt whole
    asserts turn, named, author, rfl, ?_⟩
  refine List.mem_filterMap.mpr ⟨operation, by simp, ?_⟩
  rw [withdrawalFrom_of_withdrawn withdraws, if_pos]
  exact ⟨named.symm, author, by rw [own]; exact precedes⟩

theorem retractionTarget_eq_some {fold : RelationFold} {target : Bytes32}
    {found : Bytes32 × Bytes32} (names : retractionTarget fold target = some found) :
    ∃ entry ∈ fold.entries, entry.assertion.id = target ∧ entry.assertion.author = found.2 := by
  rw [retractionTarget] at names
  have same := List.find?_some names
  have member := List.mem_of_find?_eq_some names
  rw [beq_iff_eq] at same
  rw [List.mem_append, List.mem_map, List.mem_map] at member
  rcases member with ⟨relation, held, rfl⟩ | ⟨unverified, held, rfl⟩
  · exact ⟨⟨relation, none⟩, List.mem_append_left _ (List.mem_map_of_mem held), same, rfl⟩
  · exact ⟨⟨unverified.assertion, some unverified.reason⟩,
      List.mem_append_right _ (List.mem_map_of_mem held), same, rfl⟩

theorem validateLocalRetraction_ok {causal : CausalIndex} {parents : List Bytes32}
    {author target : Bytes32}
    (valid : validateLocalRetraction host author order cipher causal parents scope target =
      .ok ()) :
    (∃ entry ∈ (foldRelations order (readableEvents host cipher) causal scope).entries,
      entry.assertion.id = target ∧ entry.assertion.author = author) ∧
      frontierObserves causal parents target = true := by
  rw [validateLocalRetraction] at valid
  simp only [bind_eq_ok_iff, localRelationFold_ok_iff] at valid
  obtain ⟨_, ⟨_, rfl⟩, checked⟩ := valid
  split at checked
  next => cases checked
  next found names =>
    split at checked
    next => cases checked
    next own =>
      split at checked
      next => cases checked
      next observed =>
        obtain ⟨entry, member, named, signed⟩ := retractionTarget_eq_some names
        rw [ne_eq, not_not] at own
        exact ⟨⟨entry, member, named, signed.trans own⟩, by simpa using observed⟩

theorem Placement.not_rejected (placed : Placement host store accepted operation before after)
    {event : KnotSyncEvent} (decodes : decodeEvent host cipher operation = .ok event)
    (signs : (asserted (readableEvents host cipher) scope operation).isSome = true ∨
      (withdrawn (readableEvents host cipher) operation).isSome = true)
    (mentioned : ∃ entry ∈ (foldRelations (before ++ operation :: after)
      (readableEvents host cipher) (accepted.causal host) scope).entries,
        entry.Mentions operation.hash) :
    ∀ refusal ∈ (foldRelations (before ++ operation :: after) (readableEvents host cipher)
        (accepted.causal host) scope).rejected ++
          undecodableRecords host cipher (before ++ operation :: after),
      refusal.operation ≠ operation.hash := by
  intro refusal member own
  rcases List.mem_append.mp member with folded | undecoded
  · have sorts := sorted_of_distinct (readableEvents host cipher) (accepted.causal host) scope
      placed.ordered.distinct
    exact (sorts.once operation (by simp) signs).mp ⟨refusal, folded, own⟩ mentioned
  · obtain ⟨other, found, error, failed, rfl⟩ := (mem_undecodableRecords_iff refusal).mp undecoded
    have same := placed.ordered.identify other found operation (by simp) own
    subst same
    rw [decodes] at failed
    cases failed

end

/-- An assertion or a retraction the writer's checks accept holds in every projection of the
extended history: the assertion is valid there, the retraction hangs on its target. -/
theorem relation_authoring_agrees (host : SyncHost) (store accepted : KnotSyncStore)
    (cipher : KnotSyncCipher) (strictness : KnotProjectionStrictness) (event : KnotSyncEvent)
    (operation : Operation) (before after : List Operation)
    (encodes : ∀ base supersedes document, ∃ bytes,
      host.merge.encodeCbor base supersedes document = .ok bytes)
    (placed : Placement host store accepted operation before after)
    (policy : accepted.policy = store.policy)
    (decodes : decodeEvent host cipher operation = .ok event)
    (relates : (assertionOf store.policy.spaceId operation event).isSome = true ∨
      (withdrawalOf event).isSome = true)
    (valid : validateLocalRelationEvent host event operation.author (before ++ after) cipher
      (store.causal host) operation.header.extensions.parents store.policy.spaceId = .ok ()) :
    ((∃ projection, store.projectionWithCipherAndStrictness host cipher strictness =
        .ok projection) →
      ∃ projection, accepted.projectionWithCipherAndStrictness host cipher strictness =
        .ok projection) ∧
    ∀ projection, accepted.projectionWithCipherAndStrictness host cipher strictness =
        .ok projection →
      (∀ refusal ∈ projection.rejectedRelations, refusal.operation ≠ operation.hash) ∧
      (∀ assertion, assertionOf store.policy.spaceId operation event = some assertion →
        assertion ∈ projection.relations ∧
        ∀ held ∈ projection.unverifiedRelations, held.assertion.id ≠ operation.hash) ∧
      ∀ target, withdrawalOf event = some target →
        ∃ relation, (relation ∈ projection.relations ∨
            ∃ held ∈ projection.unverifiedRelations, held.assertion = relation) ∧
          relation.id = target ∧ relation.author = operation.author ∧
          retractionBy operation ∈ relation.retractions := by
  have read := readableEvents_eq_some_iff.mpr decodes
  obtain ⟨pending, extended⟩ := placed.extended
  refine ⟨fun old => (placed.projects_iff encodes policy decodes old).mpr ?_,
    fun projection projected => ?_⟩
  · rintro id supersedes document rfl
    rcases relates with asserts | withdraws
    · cases asserts
    · cases withdraws
  obtain ⟨relations, unverified, rejected, _⟩ :=
    KnotSyncStore.projection_relations extended projected
  rw [policy] at relations unverified rejected
  cases event with
  | assertRelation predicate subject object evidence qualification =>
    obtain ⟨assertion, made⟩ : ∃ assertion, assertionOf store.policy.spaceId operation
      (.assertRelation predicate subject object evidence qualification) = some assertion :=
        ⟨_, rfl⟩
    have asserts : asserted (readableEvents host cipher) store.policy.spaceId operation =
        some assertion := by
      rw [asserted, read, Option.bind_some, made]
    have judged : (replayRelations (before ++ after) (readableEvents host cipher)
        (store.causal host) store.policy.spaceId).doubt (accepted.causal host) assertion =
          some none := by
      cases made
      exact validateLocalAssertion_ok placed.observes ⟨rfl, rfl, rfl, rfl⟩ valid
    obtain ⟨turn, filed⟩ := placed.files_assertion asserts judged
    refine ⟨?_, ?_, by intros; contradiction⟩
    · rw [rejected]
      exact placed.not_rejected decodes (.inl (by rw [asserts]; rfl))
        ⟨_, filed, .inl (asserted_signed asserts).1⟩
    · intro other same
      rw [made, Option.some.injEq] at same
      subst same
      refine ⟨?_, fun held member own => ?_⟩
      · rw [relations]
        exact (mem_relations_iff _).mpr filed
      · rw [unverified] at member
        obtain ⟨reason, doubted⟩ :=
          (unverified_assertion_iff placed.ordered asserts).mp ⟨held, member, .inl own⟩
        rw [turn] at doubted
        cases doubted
  | retractRelation target =>
    have withdraws : withdrawn (readableEvents host cipher) operation = some target := by
      rw [withdrawn, read, Option.bind_some]
      rfl
    obtain ⟨⟨entry, member, named, author⟩, observed⟩ := validateLocalRetraction_ok valid
    obtain ⟨attached, found, sameId, sameAuthor, _, carried⟩ :=
      placed.files_retraction withdraws member named author observed
    refine ⟨?_, by simp [assertionOf], ?_⟩
    · rw [rejected]
      exact placed.not_rejected decodes (.inr (by rw [withdraws]; rfl))
        ⟨attached, found, .inr ⟨_, carried, rfl⟩⟩
    · rintro _ same
      cases same
      refine ⟨attached.assertion, ?_, sameId, sameAuthor, carried⟩
      rw [relations, unverified]
      rw [RelationFold.entries, List.mem_append, List.mem_map, List.mem_map] at found
      rcases found with ⟨relation, held, rfl⟩ | ⟨doubted, held, rfl⟩
      · exact .inl held
      · exact .inr ⟨doubted, held, rfl⟩
  | _ => simp [assertionOf, withdrawalOf] at relates

def citationEvent : KnotSyncEvent :=
  .assertRelation (.core .cites) (.sample "note" 1) (.sample "note" 1) none none

def citation : Operation := secondOperation 20 1

def citationHost : SyncHost := .sample (.ofPairs [(1, 2)]) [.put (.sample "note"), citationEvent]

theorem relation_authoring_agrees_citation :
    ∃ projection, KnotSyncStore.projectionWithCipherAndStrictness
        (.sample [.sealed 1 10 0, citation]) citationHost (.personal .sample) .strict =
          .ok projection ∧
      ∃ assertion, assertionOf (.filled 0) citation citationEvent = some assertion ∧
        assertion ∈ projection.relations := by
  have agrees := relation_authoring_agrees citationHost (.sample [.sealed 1 10 0])
    (.sample [.sealed 1 10 0, citation]) (.personal .sample) .strict citationEvent citation
    [.sealed 1 10 0] [] (fun _ _ _ => ⟨.empty, rfl⟩) (secondOperation_placed _ _ _ _ _) rfl (by decide)
    (.inl rfl) (by decide)
  obtain ⟨projection, projected⟩ := agrees.1 (isOk_iff.mp (by decide))
  exact ⟨projection, projected, _, rfl, ((agrees.2 projection projected).2.1 _ rfl).1⟩

end KnotEditor
