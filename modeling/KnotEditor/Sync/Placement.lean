import KnotEditor.Sync.Authoring
import KnotEditor.Sync.Projectable

/-! One authored operation behind a closed history: what the writer checked against the frontier is
what replay asks of the extended index. -/

namespace KnotEditor

open Fallible KeyedCollections LinearExtensions

structure OpensSealed (host : SyncHost) (cipher : KnotSyncCipher) (event : KnotSyncEvent) :
    Prop where
  json : ∀ bytes, host.eventToJson event = .ok bytes → host.eventFromJson bytes = .ok event
  personal : ∀ vault, cipher = .personal vault → ∀ aad plaintext ciphertext,
    vault.sealSyncPayload aad plaintext = .ok ciphertext →
      vault.unsealSyncPayload aad ciphertext = .ok plaintext
  commons : ∀ keys, cipher = .commonsData keys → ∀ plaintext envelope,
    keys.sealRandom plaintext = .ok envelope → keys.openEnvelope envelope = .ok plaintext
  envelope : ∀ envelope bytes, host.encodeEnvelope envelope = .ok bytes →
    host.decodeEnvelope bytes = .ok envelope
  header : ∀ seed body seqNum backlink extensions,
    (host.buildHeader seed body seqNum backlink extensions).verifyingKey =
        host.verifyingKey seed ∧
      (host.buildHeader seed body seqNum backlink extensions).seqNum = seqNum ∧
      (host.buildHeader seed body seqNum backlink extensions).extensions = extensions

/-- The closed history of a store with one more operation in it, and the index over it. -/
structure Placement (host : SyncHost) (store accepted : KnotSyncStore) (operation : Operation)
    (before after : List Operation) : Prop where
  closed : ∃ pending, store.closedOperations host = .ok (before ++ after, pending)
  extended : ∃ pending, accepted.closedOperations host =
    .ok (before ++ operation :: after, pending)
  ordered : CausalOrder (accepted.causal host) (before ++ operation :: after)
  unchanged : ∀ earlier later, later ≠ operation.hash →
    (accepted.causal host).happensBefore earlier later =
      (store.causal host).happensBefore earlier later
  observes : ∀ earlier, (accepted.causal host).happensBefore earlier operation.hash =
    frontierObserves (store.causal host) operation.header.extensions.parents earlier
  leaf : ∀ later, (accepted.causal host).happensBefore operation.hash later = false

section

variable {host : SyncHost} {cipher : KnotSyncCipher} {event : KnotSyncEvent}
variable {store accepted : KnotSyncStore} {operation : Operation} {seed : Bytes32}
variable {time : KnotAssertedTime}

theorem decodeEvent_of_sealed (opens : OpensSealed host cipher event) {aad plaintext : ByteArray}
    {ciphertext : ByteArray} (written : host.eventToJson event = .ok plaintext)
    (hidden : sealEvent host cipher aad plaintext = .ok ciphertext)
    (body : operation.body = some ciphertext)
    (address : aad = operationAad operation.header.extensions.spaceId
      operation.header.verifyingKey operation.header.seqNum) :
    decodeEvent host cipher operation = .ok event := by
  subst address
  rw [decodeEvent, body]
  cases cipher with
  | personal vault =>
    rw [sealEvent, mapError_eq_ok_iff] at hidden
    simp only [opens.personal vault rfl _ _ _ hidden, Except.mapError, bind, Except.bind,
      opens.json _ written]
  | commonsData keys =>
    simp only [sealEvent, bind_eq_ok_iff, mapError_eq_ok_iff] at hidden
    obtain ⟨envelope, wrapped, encoded⟩ := hidden
    simp only [opens.envelope _ _ encoded, opens.commons keys rfl _ _ wrapped, Except.mapError,
      bind, Except.bind, opens.json _ written]

theorem authored_spec (opens : OpensSealed host cipher event)
    (authored : store.authorWithCipherAt host seed cipher event time =
      .ok (operation, accepted)) :
    cipher.profile = store.policy.encryption ∧ accepted.policy = store.policy ∧
      operation.author = host.verifyingKey seed ∧
      decodeEvent host cipher operation = .ok event ∧
      ∃ order pending, store.closedOperations host = .ok (order, pending) ∧
        validateLocalRelationEvent host event operation.author order cipher (store.causal host)
          operation.header.extensions.parents store.policy.spaceId = .ok () := by
  rw [KnotSyncStore.authorWithCipherAt, KnotSyncStore.authorUnderGate] at authored
  simp only [bind_eq_ok_iff, mapError_eq_ok_iff, Prod.exists] at authored
  obtain ⟨_, required, parents, _, order, pending, closed, _, valid, seqNum, backlink, _, plaintext,
    written, ciphertext, hidden, extended, kept, made⟩ := authored
  cases made
  obtain ⟨key, number, extensions⟩ := opens.header seed ciphertext seqNum backlink {
    spaceId := store.policy.spaceId
    encryption := store.policy.encryption
    parents
    assertedAtMs := time.resolve host.clock }
  rw [KnotSyncStore.acceptUnderGate] at kept
  simp only [bind_eq_ok_iff, mapError_eq_ok_iff] at kept
  obtain ⟨_, _, records, _, stored⟩ := kept
  cases stored
  refine ⟨KnotSyncStore.requireCipher_ok_iff.mp required, rfl, key, ?_, order, pending, closed, ?_⟩
  · refine decodeEvent_of_sealed opens written hidden rfl ?_
    rw [extensions, number, key]
  · simpa only [Operation.author, extensions, key] using valid

end

section

variable {one two : CausalIndex} {events : Operation → Option KnotSyncEvent} {scope : Bytes32}
variable {order : List Operation} {operation : Operation}

theorem step_causal_congr (replay : RelationReplay)
    (agrees : ∀ earlier, one.happensBefore earlier operation.hash =
      two.happensBefore earlier operation.hash) :
    replay.step events one scope operation = replay.step events two scope operation := by
  simp only [RelationReplay.step, RelationReplay.definePredicate, RelationReplay.assertRelation,
    RelationReplay.retractRelation, foldPredicateDefinition, predicateRoot, judgeAssertion,
    validateAssertedPredicate, validateRelationCapture, validateCapturedEndpoint, agrees]

theorem replayRelations_causal_congr
    (agrees : ∀ operation ∈ order, ∀ earlier, one.happensBefore earlier operation.hash =
      two.happensBefore earlier operation.hash) :
    replayRelations order events one scope = replayRelations order events two scope := by
  rw [replayRelations]
  exact List.foldl_ext _ _ _ fun replay operation member =>
    step_causal_congr replay (agrees operation member)

end

namespace Placement

variable {host : SyncHost} {store accepted : KnotSyncStore} {operation other : Operation}
variable {before after : List Operation}

theorem mem_extended_iff :
    other ∈ before ++ operation :: after ↔ other = operation ∨ other ∈ before ++ after :=
  List.perm_middle.mem_iff.trans List.mem_cons

theorem hash_ne (placed : Placement host store accepted operation before after)
    (member : other ∈ before ++ after) : other.hash ≠ operation.hash := by
  intro clash
  have same := placed.ordered.identify other (mem_extended_iff.mpr (.inr member)) operation
    (by simp) clash
  subst same
  rcases List.mem_append.mp member with early | late
  · exact placed.ordered.extension.notMem_front early
  · exact placed.ordered.extension.notMem_back late

theorem localOrder (placed : Placement host store accepted operation before after) :
    CausalOrder (store.causal host) (before ++ after) := by
  have part := placed.ordered.sublist
    ((List.sublist_cons_self operation after).append_left before)
  have agrees {earlier later : Operation} (member : later ∈ before ++ after) :
      (store.causal host).Precedes earlier later ↔ (accepted.causal host).Precedes earlier later := by
    simp only [CausalIndex.Precedes]
    rw [placed.unchanged _ _ (placed.hash_ne member)]
  refine ⟨part.distinct, part.extension.nodup, ?_, fun event member precedes => ?_⟩
  · refine part.extension.forward.imp_of_mem fun earlierFound _ apart precedes => ?_
    exact apart ((agrees earlierFound).mp precedes)
  · exact part.extension.irreflexive event member ((agrees member).mp precedes)

end Placement

def secondOperation (author key : UInt8) : Operation := (Operation.sealed 2 author key).behind [1]

theorem secondOperation_placed (vocabulary : List KnotSyncEvent)
    (author key secondAuthor secondKey : UInt8) :
    Placement (.sample (.ofPairs [(1, 2)]) vocabulary) (.sample [.sealed 1 author key])
      (.sample [.sealed 1 author key, secondOperation secondAuthor secondKey])
      (secondOperation secondAuthor secondKey) [.sealed 1 author key] [] := by
  have apart : (Bytes32.filled 1 == Bytes32.filled 2) = false := by decide
  have distinct : ([Operation.sealed 1 author key,
      secondOperation secondAuthor secondKey].map Operation.hash).Nodup := by
    change [Bytes32.filled 1, Bytes32.filled 2].Nodup
    decide
  have precedes (earlier later : Bytes32) :
      (CausalIndex.ofPairs [(1, 2)]).happensBefore earlier later =
        (earlier == .filled 1 && later == .filled 2) := Bool.or_false _
  refine ⟨⟨[], rfl⟩, ⟨[], rfl⟩, ⟨distinct, distinct.of_map _, ?_, ?_⟩, fun _ _ _ => rfl,
    fun earlier => ?_, fun later => ?_⟩
  · rw [List.singleton_append, List.pairwise_pair]
    change ¬ (CausalIndex.ofPairs [(1, 2)]).happensBefore (.filled 2) (.filled 1) = true
    decide
  · rintro event member
    simp only [List.mem_append, List.mem_singleton] at member
    rcases member with rfl | rfl
    · change ¬ (CausalIndex.ofPairs [(1, 2)]).happensBefore (.filled 1) (.filled 1) = true
      decide
    · change ¬ (CausalIndex.ofPairs [(1, 2)]).happensBefore (.filled 2) (.filled 2) = true
      decide
  · change (CausalIndex.ofPairs [(1, 2)]).happensBefore earlier (.filled 2) =
      ((Bytes32.filled 1 == earlier ||
        (CausalIndex.ofPairs [(1, 2)]).happensBefore earlier (.filled 1)) || false)
    rw [precedes, precedes, apart, beq_self_eq_true, Bool.and_true, Bool.and_false, Bool.or_false,
      Bool.or_false, Bool.beq_comm]
  · change (CausalIndex.ofPairs [(1, 2)]).happensBefore (.filled 2) later = false
    rw [precedes, Bool.beq_comm, apart, Bool.false_and]

end KnotEditor
