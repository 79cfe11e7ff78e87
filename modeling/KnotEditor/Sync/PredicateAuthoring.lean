import KnotEditor.Sync.RelationAuthoring

/-! Predicate authoring against replay. The local checks of a definition follow replay's, except
that nothing asks whether a minted slug is already live. -/

namespace KnotEditor

open Accumulations Fallible

section

variable (events : Operation → Option KnotSyncEvent) (causal : CausalIndex) (scope : Bytes32)

def refused (catalog : KnotPredicateCatalogV1) (operation : Operation) :
    Option KnotRejectedPredicateV1 :=
  (proposed events operation).bind fun proposal =>
    match foldPredicateDefinition catalog causal (originOf scope operation) proposal with
    | .ok _ => none
    | .error reason => some { operation := operation.hash, author := operation.author, reason }

theorem definePredicate_refusals (replay : RelationReplay) (operation : Operation)
    (proposal : PredicateProposal) (proposes : proposed events operation = some proposal) :
    (replay.definePredicate causal scope operation proposal).fold.catalog.rejected =
      replay.fold.catalog.rejected ++
        (refused events causal scope replay.fold.catalog operation).toList := by
  simp only [RelationReplay.definePredicate, refused, proposes, originOf, Option.bind_some]
  cases foldPredicateDefinition replay.fold.catalog causal
      ⟨operation.hash, operation.author, scope, operation.header.extensions.assertedAtMs⟩
      proposal with
  | ok definition => simp
  | error reason => simp

theorem step_refusals (replay : RelationReplay) (operation : Operation) :
    (replay.step events causal scope operation).fold.catalog.rejected =
      replay.fold.catalog.rejected ++
        (refused events causal scope replay.fold.catalog operation).toList := by
  rw [step_catalog]
  cases proposes : proposed events operation with
  | none => simp [refused, proposes]
  | some proposal =>
    exact definePredicate_refusals events causal scope replay operation proposal proposes

theorem refusals_accumulate :
    Accumulates (fun order => (replayCatalog events causal scope order).rejected)
      fun front operation =>
        (refused events causal scope (replayCatalog events causal scope front)
          operation).toList where
  starts := rfl
  grows := by
    intro front operation
    simp only [replayCatalog, foldRelations, RelationReplay.replayRelations_append_singleton,
      step_refusals]

end

section

variable {events : Operation → Option KnotSyncEvent} {causal : CausalIndex} {scope : Bytes32}
variable {catalog : KnotPredicateCatalogV1} {operation : Operation}
variable {front back order : List Operation}

theorem refused_operation {refusal : KnotRejectedPredicateV1}
    (refuses : refused events causal scope catalog operation = some refusal) :
    refusal.operation = operation.hash := by
  obtain ⟨proposal, _, made⟩ := Option.bind_eq_some_iff.mp refuses
  split at made
  next => cases made
  next =>
    cases made
    rfl

theorem refused_isSome_iff {proposal : PredicateProposal}
    (proposes : proposed events operation = some proposal) :
    (refused events causal scope catalog operation).isSome = true ↔
      admitted events causal scope catalog operation = none := by
  rw [refused, admitted, proposes, Option.bind_some, Option.bind_some]
  cases foldPredicateDefinition catalog causal (originOf scope operation) proposal <;>
    simp [Except.toOption]

theorem refusal_iff_of_turn
    (distinct : ((front ++ operation :: back).map Operation.hash).Nodup) :
    (∃ refusal ∈ (replayCatalog events causal scope (front ++ operation :: back)).rejected,
      refusal.operation = operation.hash) ↔
      (refused events causal scope (replayCatalog events causal scope front) operation).isSome =
        true := by
  rw [Option.isSome_iff_exists]
  refine exists_congr fun refusal => ?_
  rw [(refusals_accumulate events causal scope).mem_turn_iff _ distinct, Option.mem_toList]
  exact fun _ _ _ refuses => refused_operation (Option.mem_toList.mp refuses)

theorem definition_iff_of_turn
    (distinct : ((front ++ operation :: back).map Operation.hash).Nodup) :
    (∃ definition ∈ (replayCatalog events causal scope
        (front ++ operation :: back)).definitions, definition.id = operation.hash) ↔
      (admitted events causal scope (replayCatalog events causal scope front) operation).isSome =
        true := by
  rw [Option.isSome_iff_exists]
  refine exists_congr fun definition => ?_
  rw [(definitions_accumulate events causal scope).mem_turn_iff
    (admitted_marks events causal scope) distinct, Option.mem_toList]

end

section

variable {host : SyncHost} {cipher : KnotSyncCipher} {store accepted : KnotSyncStore}
variable {events : Operation → Option KnotSyncEvent} {scope : Bytes32} {operation : Operation}
variable {before after : List Operation} {proposal : PredicateProposal}

theorem Placement.filter_author_eq
    (placed : Placement host store accepted operation before after)
    (chained : SingleWriter (accepted.causal host) (before ++ operation :: after)) :
    ((before ++ after).filter fun other => other.author == operation.author) =
      before.filter fun other => other.author == operation.author := by
  suffices behind : (after.filter fun other => other.author == operation.author) = [] by
    rw [List.filter_append, behind, List.append_nil]
  rw [List.filter_eq_nil_iff]
  intro later behind mine
  rw [beq_iff_eq] at mine
  have found : later ∈ before ++ operation :: after := by simp [behind]
  have distinct : later ≠ operation := by
    rintro rfl
    exact placed.ordered.extension.notMem_back behind
  rcases chained later found operation (by simp) mine distinct with precedes | follows
  · exact placed.ordered.extension.notMem_front_of_mem_back behind
      (placed.ordered.mem_front found precedes)
  · have leaf := placed.leaf later.hash
    rw [follows] at leaf
    cases leaf

theorem Placement.admitted_eq (placed : Placement host store accepted operation before after)
    (chained : SingleWriter (accepted.causal host) (before ++ operation :: after)) :
    admitted events (accepted.causal host) scope
        (replayCatalog events (accepted.causal host) scope before) operation =
      admitted events (accepted.causal host) scope
        (replayCatalog events (store.causal host) scope (before ++ after)) operation := by
  have identify := placed.localOrder.identify
  have early := identify.sublist (List.sublist_append_left before after)
  have same : replayCatalog events (accepted.causal host) scope before =
      replayCatalog events (store.causal host) scope before := by
    simp only [replayCatalog, foldRelations]
    rw [placed.replay_eq fun other member => List.mem_append_left after member]
  have owned := replayCatalog_ownedBy_eq events (store.causal host) scope identify early
    operation.author (placed.filter_author_eq chained).symm
  rw [same, ← (replayCatalog_invariant events (store.causal host) scope early).admitted_ownedBy
      early, owned,
    (replayCatalog_invariant events (store.causal host) scope identify).admitted_ownedBy identify]

theorem validateLocalSupersession_ok_iff {causal : CausalIndex} {parents : List Bytes32}
    {author previous : Bytes32} {slug : String} (catalog : KnotPredicateCatalogV1) :
    validateLocalSupersession catalog causal parents author slug previous = .ok () ↔
      ∃ definition, catalog.definition previous = some definition ∧
        definition.author = author ∧ frontierObserves causal parents definition.id = true ∧
        definition.slug = slug := by
  rw [validateLocalSupersession]
  cases catalog.definition previous with
  | none => simp
  | some definition =>
    by_cases own : definition.author = author
    · cases observed : frontierObserves causal parents definition.id
      · simp [own, observed]
      · by_cases kept : definition.slug = slug <;> simp [own, observed, kept]
    · simp [own]

theorem Placement.admitted_isSome_iff
    (placed : Placement host store accepted operation before after)
    (proposes : proposed (readableEvents host cipher) operation = some proposal)
    (payload : proposal.validate = .ok ())
    (continues : ∀ previous, proposal.supersedes = some previous →
      validateLocalSupersession (foldRelations (before ++ after) (readableEvents host cipher)
        (store.causal host) scope).catalog (store.causal host)
        operation.header.extensions.parents operation.author proposal.slug previous = .ok ()) :
    (admitted (readableEvents host cipher) (accepted.causal host) scope
      (replayCatalog (readableEvents host cipher) (store.causal host) scope (before ++ after))
      operation).isSome = true ↔
      proposal.supersedes.isSome = true ∨
        slugIsLive (foldRelations (before ++ after) (readableEvents host cipher)
          (store.causal host) scope).catalog operation.author scope proposal.slug = false := by
  rw [Option.isSome_iff_exists]
  simp only [admitted_eq_some_iff, proposes, Option.some.injEq, exists_eq_left', payload, true_and]
  cases supersedes : proposal.supersedes with
  | none =>
    simp only [Option.isSome_none, Bool.false_eq_true, false_or]
    constructor
    · rintro ⟨definition, admission⟩
      cases admission with
      | minted _ free => exact free
      | continued named => simp [supersedes] at named
    · intro free
      exact ⟨_, .minted supersedes free⟩
  | some previous =>
    simp only [Option.isSome_some, true_or, iff_true]
    obtain ⟨definition, found, author, observed, slug⟩ :=
      (validateLocalSupersession_ok_iff _).mp (continues previous supersedes)
    exact ⟨_, .continued supersedes found author ((placed.observes _).trans observed) slug⟩

end

/-- An accepted definition is admitted by every replay of the extended history, and not refused,
exactly when it continues a chain or its slug is not live for its author yet. -/
theorem predicate_authoring_agrees_iff (host : SyncHost) (store accepted : KnotSyncStore)
    (cipher : KnotSyncCipher) (operation : Operation) (before after : List Operation)
    (proposal : PredicateProposal)
    (placed : Placement host store accepted operation before after)
    (chained : SingleWriter (accepted.causal host) (before ++ operation :: after))
    (decodes : decodeEvent host cipher operation = .ok (.definePredicate proposal.slug
      proposal.label proposal.description proposal.subpropertyOf proposal.lowersTo
      proposal.supersedes proposal.replacedBy))
    (valid : validateLocalRelationEvent host (.definePredicate proposal.slug proposal.label
      proposal.description proposal.subpropertyOf proposal.lowersTo proposal.supersedes
      proposal.replacedBy) operation.author (before ++ after) cipher (store.causal host)
      operation.header.extensions.parents store.policy.spaceId = .ok ()) :
    ((∃ definition ∈ (foldRelations (before ++ operation :: after) (readableEvents host cipher)
        (accepted.causal host) store.policy.spaceId).catalog.definitions,
        definition.id = operation.hash) ∧
      ∀ refusal ∈ (foldRelations (before ++ operation :: after) (readableEvents host cipher)
        (accepted.causal host) store.policy.spaceId).catalog.rejected,
        refusal.operation ≠ operation.hash) ↔
      proposal.supersedes.isSome = true ∨
        slugIsLive (foldRelations (before ++ after) (readableEvents host cipher)
          (store.causal host) store.policy.spaceId).catalog operation.author store.policy.spaceId
          proposal.slug = false := by
  have proposes : proposed (readableEvents host cipher) operation = some proposal := by
    rw [proposed, readableEvents_eq_some_iff.mpr decodes, Option.bind_some]
    rfl
  simp only [validateLocalRelationEvent, bind_eq_ok_iff, mapError_eq_ok_iff] at valid
  obtain ⟨_, payload, checked⟩ := valid
  have continues : ∀ previous, proposal.supersedes = some previous →
      validateLocalSupersession (foldRelations (before ++ after) (readableEvents host cipher)
        (store.causal host) store.policy.spaceId).catalog (store.causal host)
        operation.header.extensions.parents operation.author proposal.slug previous = .ok () := by
    intro previous named
    rw [named] at checked
    simp only [bind_eq_ok_iff, localPredicateCatalog_ok_iff] at checked
    obtain ⟨_, ⟨_, rfl⟩, kept⟩ := checked
    exact kept
  have turn := placed.admitted_isSome_iff proposes payload continues
  rw [← placed.admitted_eq chained] at turn
  rw [← turn]
  have admits : (∃ definition ∈ (foldRelations (before ++ operation :: after)
      (readableEvents host cipher) (accepted.causal host) store.policy.spaceId).catalog.definitions,
        definition.id = operation.hash) ↔ _ := definition_iff_of_turn placed.ordered.distinct
  constructor
  · rintro ⟨defined, _⟩
    exact admits.mp defined
  · intro admitting
    refine ⟨admits.mpr admitting, fun refusal member own => ?_⟩
    have refuses := (refusal_iff_of_turn placed.ordered.distinct).mp ⟨refusal, member, own⟩
    rw [(refused_isSome_iff proposes).mp refuses] at admitting
    cases admitting

def backsProposal : PredicateProposal where
  slug := "backs"
  label := "backs"
  description := none
  subpropertyOf := none
  lowersTo := none
  supersedes := none
  replacedBy := none

def backsHost : SyncHost := .sample (.ofPairs [(1, 2)])
  [.definePredicate "backs" "backs" none none none none none]

theorem secondMint_valid : validateLocalRelationEvent backsHost
    (.definePredicate "backs" "backs" none none none none none) (secondOperation 10 0).author
    [.sealed 1 10 0] (.personal .sample) (KnotSyncStore.causal (.sample [.sealed 1 10 0]) backsHost)
    (secondOperation 10 0).header.extensions.parents (.filled 0) = .ok () := by decide

theorem secondMint_refused : ∃ refusal ∈ (foldRelations [.sealed 1 10 0, secondOperation 10 0]
    (readableEvents backsHost (.personal .sample)) (.ofPairs [(1, 2)])
    (.filled 0)).catalog.rejected, refusal.operation = (secondOperation 10 0).hash := by
  decide

theorem second_mint_passes_and_is_refused :
    validateLocalRelationEvent backsHost
      (.definePredicate "backs" "backs" none none none none none) (secondOperation 10 0).author
      [.sealed 1 10 0] (.personal .sample)
      (KnotSyncStore.causal (.sample [.sealed 1 10 0]) backsHost)
      (secondOperation 10 0).header.extensions.parents (.filled 0) = .ok () ∧
    decodeEvent backsHost (.personal .sample) (secondOperation 10 0) =
      .ok (.definePredicate "backs" "backs" none none none none none) ∧
    ∃ refusal ∈ (foldRelations [.sealed 1 10 0, secondOperation 10 0]
      (readableEvents backsHost (.personal .sample)) (.ofPairs [(1, 2)])
      (.filled 0)).catalog.rejected, refusal.operation = (secondOperation 10 0).hash :=
  ⟨secondMint_valid, by decide, secondMint_refused⟩

theorem predicate_authoring_agrees_iff_secondMint :
    ¬ (backsProposal.supersedes.isSome = true ∨
      slugIsLive (foldRelations [.sealed 1 10 0] (readableEvents backsHost (.personal .sample))
        (.ofPairs [(1, 2)]) (.filled 0)).catalog (.filled 10) (.filled 0) "backs" = false) := by
  intro free
  obtain ⟨refusal, member, own⟩ := secondMint_refused
  exact ((predicate_authoring_agrees_iff backsHost (.sample [.sealed 1 10 0])
    (.sample [.sealed 1 10 0, secondOperation 10 0]) (.personal .sample) (secondOperation 10 0)
    [.sealed 1 10 0] [] backsProposal (secondOperation_placed _ _ _ _ _)
    (by unfold SingleWriter; decide) (by decide) secondMint_valid).mpr free).2 refusal
      member own

end KnotEditor
