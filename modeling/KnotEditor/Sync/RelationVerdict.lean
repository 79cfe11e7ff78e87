import KnotEditor.Sync.RelationLedger

/-! Verdicts in their causal past. Whether an assertion is valid depends on the definitions and
captures it observes, and those have all been replayed when its turn comes. -/

namespace KnotEditor

open LinearExtensions KeyedCollections

structure AgreesBefore (causal : CausalIndex) (operation : Bytes32) (left right : RelationReplay) :
    Prop where
  definition : ∀ id, causal.happensBefore id operation = true →
    left.fold.catalog.definition id = right.fold.catalog.definition id
  members : ∀ definition : KnotPredicateDefinitionV1,
    causal.happensBefore definition.id operation = true →
      (definition ∈ left.fold.catalog.definitions ↔ definition ∈ right.fold.catalog.definitions)
  documents : ∀ head, causal.happensBefore head operation = true →
    left.documents[head]? = right.documents[head]?

section

variable {causal : CausalIndex} {operation : Bytes32} {left right third : RelationReplay}
variable {assertion : KnotRelationAssertionV1}

theorem AgreesBefore.symm (agrees : AgreesBefore causal operation left right) :
    AgreesBefore causal operation right left where
  definition := fun id before => (agrees.definition id before).symm
  members := fun definition before => (agrees.members definition before).symm
  documents := fun head before => (agrees.documents head before).symm

theorem AgreesBefore.trans (first : AgreesBefore causal operation left right)
    (second : AgreesBefore causal operation right third) :
    AgreesBefore causal operation left third where
  definition := fun id before => (first.definition id before).trans (second.definition id before)
  members := fun definition before =>
    (first.members definition before).trans (second.members definition before)
  documents := fun head before => (first.documents head before).trans (second.documents head before)

theorem validateAssertedPredicate_ok_iff (catalog : KnotPredicateCatalogV1)
    (predicate : KnotPredicateRefV1) :
    validateAssertedPredicate catalog causal predicate operation = .ok () ↔
      ∀ id, predicate = .defined id → causal.happensBefore id operation = true ∧
        ∃ definition, catalog.definition id = some definition ∧
          ∀ later ∈ catalog.definitions, later.root = definition.root →
            later.replacedBy.isSome = true →
              causal.happensBefore later.id operation = false := by
  cases predicate with
  | core predicate => simp [validateAssertedPredicate]
  | unrecognized label => simp [validateAssertedPredicate]
  | defined id =>
    simp only [validateAssertedPredicate, KnotPredicateCatalogV1.rootOf,
      KnotPredicateRefV1.defined.injEq, forall_eq']
    cases found : catalog.definition id with
    | none => simp
    | some definition =>
      cases observed : causal.happensBefore id operation with
      | false => simp
      | true =>
        simp only [Option.map_some, Bool.not_true, Bool.false_eq_true, if_false, true_and,
          Option.some.injEq, exists_eq_left']
        split
        next retired =>
          simp only [List.any_eq_true, Bool.and_eq_true, beq_iff_eq] at retired
          obtain ⟨later, member, ⟨root, replaced⟩, before⟩ := retired
          simp only [reduceCtorEq, false_iff]
          intro live
          rw [live later member root replaced] at before
          cases before
        next live =>
          simp only [true_iff]
          intro later member root replaced
          by_contra before
          rw [Bool.not_eq_false] at before
          exact live (List.any_eq_true.mpr ⟨later, member, by simp [root, replaced, before]⟩)

theorem validateCapturedEndpoint_ok_iff (documents : HashMap VaultDocument) (role : String)
    (endpoint : KnotRelationEndpointV1) :
    validateCapturedEndpoint operation documents causal role endpoint = .ok () ↔
      causal.happensBefore endpoint.documentHead operation = true ∧
        ∃ document, documents[endpoint.documentHead]? = some document ∧
          document.id = endpoint.documentId ∧
          validateEndpointCapture endpoint document role = .ok () := by
  rw [validateCapturedEndpoint]
  cases found : documents[endpoint.documentHead]? with
  | none => simp
  | some document =>
    by_cases same : document.id = endpoint.documentId
    · cases observed : causal.happensBefore endpoint.documentHead operation <;> simp [same]
    · simp [same]

theorem judgeAssertion_ok_iff (catalog : KnotPredicateCatalogV1)
    (documents : HashMap VaultDocument) :
    judgeAssertion catalog documents causal assertion = .ok () ↔
      validateRelationPayload assertion.predicate assertion.subject assertion.object = .ok () ∧
      validateAssertedPredicate catalog causal assertion.predicate assertion.operation = .ok () ∧
      validateCapturedEndpoint assertion.operation documents causal "subject"
        assertion.subject = .ok () ∧
      validateCapturedEndpoint assertion.operation documents causal "object"
        assertion.object = .ok () := by
  rw [judgeAssertion, validateRelationCapture]
  cases validateRelationPayload assertion.predicate assertion.subject assertion.object with
  | error reason => simp [bind, Except.bind, Except.mapError]
  | ok _ =>
    cases validateAssertedPredicate catalog causal assertion.predicate assertion.operation with
    | error reason => simp [bind, Except.bind, Except.mapError]
    | ok _ =>
      cases validateCapturedEndpoint assertion.operation documents causal "subject"
          assertion.subject <;> simp [bind, Except.bind, Except.mapError]

theorem doubt_eq_none_iff (replay : RelationReplay) :
    replay.doubt causal assertion = some none ↔
      judgeAssertion replay.fold.catalog replay.documents causal assertion = .ok () := by
  rw [RelationReplay.doubt]
  cases judgeAssertion replay.fold.catalog replay.documents causal assertion with
  | ok _ => simp [doubtOf]
  | error refusal => cases refusal <;> simp [doubtOf]

theorem AgreesBefore.predicate_iff (agrees : AgreesBefore causal operation left right)
    (predicate : KnotPredicateRefV1) :
    validateAssertedPredicate left.fold.catalog causal predicate operation = .ok () ↔
      validateAssertedPredicate right.fold.catalog causal predicate operation = .ok () := by
  rw [validateAssertedPredicate_ok_iff, validateAssertedPredicate_ok_iff]
  refine forall_congr' fun id => imp_congr_right fun _ => and_congr_right fun before => ?_
  rw [agrees.definition id before]
  refine exists_congr fun definition => and_congr_right fun _ => ?_
  constructor
  · intro live later member root replaced
    by_contra observed
    rw [Bool.not_eq_false] at observed
    exact absurd (live later ((agrees.members later observed).mpr member) root replaced)
      (by simp [observed])
  · intro live later member root replaced
    by_contra observed
    rw [Bool.not_eq_false] at observed
    exact absurd (live later ((agrees.members later observed).mp member) root replaced)
      (by simp [observed])

theorem AgreesBefore.endpoint_iff (agrees : AgreesBefore causal operation left right)
    (role : String) (endpoint : KnotRelationEndpointV1) :
    validateCapturedEndpoint operation left.documents causal role endpoint = .ok () ↔
      validateCapturedEndpoint operation right.documents causal role endpoint = .ok () := by
  rw [validateCapturedEndpoint_ok_iff, validateCapturedEndpoint_ok_iff]
  refine and_congr_right fun before => ?_
  rw [agrees.documents _ before]

theorem AgreesBefore.valid_iff (agrees : AgreesBefore causal assertion.operation left right) :
    left.doubt causal assertion = some none ↔ right.doubt causal assertion = some none := by
  rw [doubt_eq_none_iff, doubt_eq_none_iff, judgeAssertion_ok_iff, judgeAssertion_ok_iff,
    agrees.predicate_iff, agrees.endpoint_iff, agrees.endpoint_iff]

end

section

variable {events : Operation → Option KnotSyncEvent} {causal : CausalIndex} {scope : Bytes32}
variable {order front back : List Operation} {operation : Operation}
variable {definition : KnotPredicateDefinitionV1} {assertion : KnotRelationAssertionV1}

theorem agreesBefore_prefix {index : CausalIndex} {hash : Bytes32}
    (distinct : ((front ++ back).map Operation.hash).Nodup)
    (past : ∀ observed ∈ front ++ back,
      index.happensBefore observed.hash hash = true → observed ∈ front) :
    AgreesBefore index hash (replayRelations front events causal scope)
      (replayRelations (front ++ back) events causal scope) := by
  have invariant := replayCatalog_invariant events causal scope
    (hashesIdentify_of_distinct distinct)
  have accumulates := definitions_accumulate events causal scope
  have members : ∀ definition : KnotPredicateDefinitionV1,
      index.happensBefore definition.id hash = true →
        (definition ∈ (replayCatalog events causal scope front).definitions ↔
          definition ∈ (replayCatalog events causal scope (front ++ back)).definitions) := by
    intro definition before
    refine ⟨accumulates.mem_append_left, fun member => ?_⟩
    obtain ⟨signer, signerFound, proposal, _, defined⟩ := invariant.source definition member
    have id : definition.id = signer.hash := by rw [defined]; rfl
    rw [id] at before
    exact accumulates.mem_front (admitted_marks events causal scope) distinct member
      ⟨signer, past signer signerFound before, id.symm⟩
  refine ⟨fun id before => ?_, members, fun head before => ?_⟩
  · change (replayCatalog events causal scope front).definition id =
      (replayCatalog events causal scope (front ++ back)).definition id
    obtain ⟨rest, grown⟩ := accumulates.append front back
    simp only [KnotPredicateCatalogV1.definition]
    rw [grown, List.find?_append]
    cases found : (replayCatalog events causal scope front).definitions.find?
        fun definition => definition.id == id with
    | some definition => rfl
    | none =>
      rw [Option.none_or, eq_comm, List.find?_eq_none]
      intro definition member same
      rw [beq_iff_eq] at same
      subst same
      have inFront := (members definition before).mpr (by rw [grown]; simp [member])
      simpa using List.find?_eq_none.mp found definition inFront
  · rw [replayRelations_documents, replayRelations_documents]
    refine getElem?_collect_prefix distinct fun writer member same => ?_
    rw [← same] at before
    exact past writer member before

theorem agreesBefore_front (ordered : CausalOrder causal (front ++ operation :: back)) :
    AgreesBefore causal operation.hash (replayRelations front events causal scope)
      (replayRelations (front ++ operation :: back) events causal scope) :=
  agreesBefore_prefix ordered.distinct fun _ => ordered.mem_front

theorem valid_front_iff (ordered : CausalOrder causal (front ++ operation :: back))
    (asserts : asserted events scope operation = some assertion) :
    (replayRelations front events causal scope).doubt causal assertion = some none ↔
      (replayRelations (front ++ operation :: back) events causal scope).doubt causal assertion =
        some none := by
  refine AgreesBefore.valid_iff ?_
  rw [asserted_operation asserts]
  exact agreesBefore_front ordered

theorem withdrawals_whole (ordered : CausalOrder causal (front ++ operation :: back))
    (asserts : asserted events scope operation = some assertion) :
    withdrawals events causal assertion (front ++ operation :: back) =
      withdrawals events causal assertion back := by
  obtain ⟨own, _, _⟩ := asserted_signed asserts
  have early : ∀ earlier ∈ front, withdrawalFrom events causal assertion earlier = none := by
    intro earlier member
    rw [withdrawalFrom, Option.bind_eq_none_iff]
    intro target _
    rw [if_neg]
    rintro ⟨_, _, observed⟩
    rw [own] at observed
    exact ordered.extension.notMem_front_of_mem_back
      (ordered.extension.mem_back (by simp [member]) observed) member
  have self : withdrawalFrom events causal assertion operation = none := by
    rw [withdrawalFrom, withdrawn_of_asserted events scope operation asserts]
    rfl
  simp only [withdrawals]
  rw [List.filterMap_append, List.filterMap_cons, self,
    List.filterMap_eq_nil_iff.mpr early, List.nil_append]

theorem withdrawals_filter_author (assertion : KnotRelationAssertionV1)
    (operations : List Operation) :
    withdrawals events causal assertion
        (operations.filter fun operation => operation.author == assertion.author) =
      withdrawals events causal assertion operations := by
  rw [withdrawals, List.filterMap_filter]
  refine List.filterMap_congr fun operation _ => ?_
  by_cases mine : operation.author = assertion.author
  · simp [mine]
  · rw [if_neg (by simpa using mine), eq_comm, withdrawalFrom, Option.bind_eq_none_iff]
    intro target _
    rw [if_neg]
    rintro ⟨_, author, _⟩
    exact mine author.symm

end

end KnotEditor
