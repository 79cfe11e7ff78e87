import KnotEditor.Sync.DocumentReplay
import KnotEditor.Sync.RelationVerdict

/-! Convergence: two replicas that replay one history in two causal orders see the same documents,
the same predicates and the same valid relations. -/

namespace KnotEditor

section

variable {events : Operation → Option KnotSyncEvent} {causal : CausalIndex} {scope : Bytes32}
variable {order other front back : List Operation} {operation : Operation}
variable {assertion relation : KnotRelationAssertionV1}

theorem mem_definitions_of_perm (left : CausalOrder causal order)
    (right : CausalOrder causal other) (same : order.Perm other)
    (chained : SingleWriter causal order) {definition : KnotPredicateDefinitionV1}
    (member : definition ∈ (replayCatalog events causal scope order).definitions) :
    definition ∈ (replayCatalog events causal scope other).definitions := by
  have owned := replayCatalog_ownedBy_eq events causal scope right.identify left.identify
    definition.author (left.filter_author_eq right same chained definition.author)
  have mine : definition ∈
      ((replayCatalog events causal scope order).ownedBy definition.author).definitions := by
    rw [KnotPredicateCatalogV1.ownedBy_definitions, List.mem_filter]
    exact ⟨member, by simp⟩
  rw [owned, KnotPredicateCatalogV1.ownedBy_definitions, List.mem_filter] at mine
  exact mine.1

theorem definition_of_perm (left : CausalOrder causal order)
    (right : CausalOrder causal other) (same : order.Perm other)
    (chained : SingleWriter causal order) (id : Bytes32) :
    (replayCatalog events causal scope order).definition id =
      (replayCatalog events causal scope other).definition id := by
  have forward {first second : List Operation} (firstOrder : CausalOrder causal first)
      (secondOrder : CausalOrder causal second) (equal : first.Perm second)
      (chain : SingleWriter causal first) (definition : KnotPredicateDefinitionV1)
      (found : (replayCatalog events causal scope first).definition id = some definition) :
      (replayCatalog events causal scope second).definition id = some definition :=
    (replayCatalog_chain_eq events causal scope firstOrder.identify secondOrder.identify found
      (firstOrder.filter_author_eq secondOrder equal chain definition.author).symm).1
  refine Option.ext fun definition => ⟨?_, ?_⟩
  · exact forward left right same chained definition
  · exact forward right left same.symm (chained.perm same) definition

theorem current_of_perm (left : CausalOrder causal order)
    (right : CausalOrder causal other) (same : order.Perm other)
    (chained : SingleWriter causal order) (id : Bytes32) :
    (replayCatalog events causal scope order).current id =
      (replayCatalog events causal scope other).current id := by
  have definitions : (replayCatalog events causal scope order).definition id =
      (replayCatalog events causal scope other).definition id :=
    definition_of_perm left right same chained id
  cases found : (replayCatalog events causal scope order).definition id with
  | some definition =>
    exact (replayCatalog_chain_eq events causal scope left.identify right.identify found
      (left.filter_author_eq right same chained definition.author).symm).2.1.symm
  | none =>
    rw [found] at definitions
    simp only [KnotPredicateCatalogV1.current, KnotPredicateCatalogV1.rootOf]
    rw [found, ← definitions]
    rfl

theorem agreesBefore_of_perm (left : CausalOrder causal order)
    (right : CausalOrder causal other) (same : order.Perm other)
    (chained : SingleWriter causal order) (hash : Bytes32) :
    AgreesBefore causal hash (replayRelations order events causal scope)
      (replayRelations other events causal scope) where
  definition := fun id _ => definition_of_perm left right same chained id
  members := fun _ _ => ⟨mem_definitions_of_perm left right same chained,
    mem_definitions_of_perm right left same.symm (chained.perm same)⟩
  documents := fun head _ => by
    rw [replayRelations_documents, replayRelations_documents,
      KeyedCollections.collect_perm same left.distinct]

theorem mem_relations_iff (fold : RelationFold) :
    relation ∈ fold.relations ↔ ⟨relation, none⟩ ∈ fold.entries := by
  simp [RelationFold.entries]

theorem mem_relations_iff_of_order (ordered : CausalOrder causal order) :
    relation ∈ (foldRelations order events causal scope).relations ↔
      ∃ operation ∈ order, ∃ assertion, asserted events scope operation = some assertion ∧
        (replayRelations order events causal scope).doubt causal assertion = some none ∧
        relation = { assertion with retractions := withdrawals events causal assertion order } := by
  rw [foldRelations, mem_relations_iff,
    (replayRelations_entries events causal scope ordered.distinct).2]
  constructor
  · intro filed
    generalize held : (⟨relation, none⟩ : LedgerEntry) = entry at filed
    obtain ⟨front, operation, back, assertion, doubt, rfl, asserts, judged⟩ := filed
    cases held
    refine ⟨operation, by simp, assertion, asserts, (valid_front_iff ordered asserts).mp judged, ?_⟩
    rw [withdrawals_whole ordered asserts]
  · rintro ⟨operation, member, assertion, asserts, judged, rfl⟩
    obtain ⟨front, back, rfl⟩ := List.append_of_mem member
    rw [withdrawals_whole ordered asserts]
    exact Filed.intro front operation back assertion none rfl asserts
      ((valid_front_iff ordered asserts).mpr judged)

theorem mem_relations_of_perm (left : CausalOrder causal order)
    (right : CausalOrder causal other) (same : order.Perm other)
    (chained : SingleWriter causal order)
    (member : relation ∈ (foldRelations order events causal scope).relations) :
    relation ∈ (foldRelations other events causal scope).relations := by
  obtain ⟨operation, found, assertion, asserts, judged, rfl⟩ :=
    (mem_relations_iff_of_order left).mp member
  refine (mem_relations_iff_of_order right).mpr
    ⟨operation, same.mem_iff.mp found, assertion, asserts, ?_, ?_⟩
  · exact (agreesBefore_of_perm left right same chained assertion.operation).valid_iff.mp judged
  · rw [← withdrawals_filter_author assertion order, ← withdrawals_filter_author assertion other,
      left.filter_author_eq right same chained]

end

/-- Replaying one history in two causal orders gives the same current versions, the same
definitions and latest definition of every chain, and the same valid relations. -/
theorem replay_converges (events : Operation → Option KnotSyncEvent) (causal : CausalIndex)
    (scope : Bytes32) (order other : List Operation) (left : CausalOrder causal order)
    (right : CausalOrder causal other) (same : order.Perm other)
    (chained : SingleWriter causal order) :
    (foldDocuments order events causal).toOption.map DocumentReplay.current =
        (foldDocuments other events causal).toOption.map DocumentReplay.current ∧
      (∀ definition, definition ∈ (foldRelations order events causal scope).catalog.definitions ↔
        definition ∈ (foldRelations other events causal scope).catalog.definitions) ∧
      (∀ id, (foldRelations order events causal scope).catalog.current id =
        (foldRelations other events causal scope).catalog.current id) ∧
      ∀ relation, relation ∈ (foldRelations order events causal scope).relations ↔
        relation ∈ (foldRelations other events causal scope).relations := by
  refine ⟨foldDocuments_converges left right same chained, fun definition => ⟨?_, ?_⟩,
    current_of_perm left right same chained, fun relation => ⟨?_, ?_⟩⟩
  · exact mem_definitions_of_perm left right same chained
  · exact mem_definitions_of_perm right left same.symm (chained.perm same)
  · exact mem_relations_of_perm left right same chained
  · exact mem_relations_of_perm right left same.symm (chained.perm same)

def settledHistory : List Operation := [.sample 1 10, .sample 2 20, .sample 3 10]

def settledEvents (operation : Operation) : Option KnotSyncEvent :=
  if operation.hash = .filled 3 then
    some (.resolve "note" [.filled 1, .filled 2] (some (.sample "note")))
  else some (.put (.sample "note"))

theorem replay_converges_settledHistory :
    (foldDocuments settledHistory settledEvents
        (.ofPairs [(1, 3), (2, 3)])).toOption.map DocumentReplay.current =
      (foldDocuments [.sample 2 20, .sample 1 10, .sample 3 10] settledEvents
        (.ofPairs [(1, 3), (2, 3)])).toOption.map DocumentReplay.current :=
  (replay_converges settledEvents (.ofPairs [(1, 3), (2, 3)]) (.filled 0) settledHistory
    [.sample 2 20, .sample 1 10, .sample 3 10]
    ⟨by decide, ⟨by decide, by decide, by decide⟩⟩ ⟨by decide, ⟨by decide, by decide, by decide⟩⟩
    (List.Perm.swap _ _ _) (by unfold SingleWriter; decide)).1

end KnotEditor
