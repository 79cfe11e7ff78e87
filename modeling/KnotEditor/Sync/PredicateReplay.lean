import KnotEditor.Library.Accumulation
import KnotEditor.Library.Fallible
import KnotEditor.Sync.History
import Mathlib.Data.List.Find

/-! The predicate catalog over whole replays: chains keep their shape, and a chain is the work of
the author who minted it. -/

namespace KnotEditor

open Accumulations Fallible

def proposalOf : KnotSyncEvent → Option PredicateProposal
  | .definePredicate slug label description subpropertyOf lowersTo supersedes replacedBy =>
    some { slug, label, description, subpropertyOf, lowersTo, supersedes, replacedBy }
  | _ => none

def originOf (scope : Bytes32) (operation : Operation) : PredicateOrigin where
  operation := operation.hash
  author := operation.author
  scope := scope
  assertedAtMs := operation.header.extensions.assertedAtMs

section

variable (events : Operation → Option KnotSyncEvent) (causal : CausalIndex) (scope : Bytes32)

def proposed (operation : Operation) : Option PredicateProposal :=
  (events operation).bind proposalOf

def admitted (catalog : KnotPredicateCatalogV1) (operation : Operation) :
    Option KnotPredicateDefinitionV1 :=
  (proposed events operation).bind fun proposal =>
    (foldPredicateDefinition catalog causal (originOf scope operation) proposal).toOption

def replayCatalog (order : List Operation) : KnotPredicateCatalogV1 :=
  (foldRelations order events causal scope).catalog

theorem definePredicate_definitions (replay : RelationReplay) (operation : Operation)
    (proposal : PredicateProposal) :
    (replay.definePredicate causal scope operation proposal).fold.catalog.definitions =
      replay.fold.catalog.definitions ++
        (foldPredicateDefinition replay.fold.catalog causal (originOf scope operation)
          proposal).toOption.toList := by
  simp only [RelationReplay.definePredicate, originOf]
  split
  next definition accepted => simp [accepted, Except.toOption]
  next reason refused => simp [refused, Except.toOption]

theorem step_catalog (replay : RelationReplay) (operation : Operation) :
    (replay.step events causal scope operation).fold.catalog =
      match proposed events operation with
      | some proposal => (replay.definePredicate causal scope operation proposal).fold.catalog
      | none => replay.fold.catalog := by
  rw [RelationReplay.step, proposed]
  cases events operation with
  | none => rfl
  | some event =>
    cases event with
    | captureFileRevision revision =>
      simp only [proposalOf, Option.bind_some]
      split <;> rfl
    | resolve id supersedes document => cases document <;> rfl
    | assertRelation predicate subject object evidence qualification => simp [proposalOf]
    | retractRelation assertion => simp [proposalOf]
    | definePredicate slug label description subpropertyOf lowersTo supersedes replacedBy => rfl
    | put document => rfl
    | delete id => rfl
    | retainCompositionV1 itemJson => rfl
    | organizeCompositionV1 originalAuthor itemId previous organizationJson => rfl

theorem step_definitions (replay : RelationReplay) (operation : Operation) :
    (replay.step events causal scope operation).fold.catalog.definitions =
      replay.fold.catalog.definitions ++
        (admitted events causal scope replay.fold.catalog operation).toList := by
  rw [step_catalog, admitted]
  cases proposed events operation with
  | none => simp
  | some proposal => exact definePredicate_definitions causal scope replay operation proposal

theorem replayCatalog_append_singleton (front : List Operation) (operation : Operation) :
    (replayCatalog events causal scope (front ++ [operation])).definitions =
      (replayCatalog events causal scope front).definitions ++
        (admitted events causal scope (replayCatalog events causal scope front)
          operation).toList := by
  simp only [replayCatalog, foldRelations]
  rw [RelationReplay.replayRelations_append_singleton, step_definitions]

def historyCatalog (order : List Operation) : KnotPredicateCatalogV1 :=
  order.foldl (fun catalog operation =>
    { catalog with definitions := catalog.definitions ++
        (admitted events causal scope catalog operation).toList }) {}

theorem definitions_accumulate :
    Accumulates (fun order => (replayCatalog events causal scope order).definitions)
      fun front operation =>
        (admitted events causal scope (replayCatalog events causal scope front)
          operation).toList where
  starts := rfl
  grows := replayCatalog_append_singleton events causal scope

end

section

variable {causal : CausalIndex} {catalog : KnotPredicateCatalogV1} {origin : PredicateOrigin}
variable {proposal : PredicateProposal} {definition : KnotPredicateDefinitionV1}

inductive Admission (causal : CausalIndex) (catalog : KnotPredicateCatalogV1)
    (origin : PredicateOrigin) (proposal : PredicateProposal) : KnotPredicateDefinitionV1 → Prop
  | minted (fresh : proposal.supersedes = none)
      (free : slugIsLive catalog origin.author origin.scope proposal.slug = false) :
      Admission causal catalog origin proposal
        (proposal.define origin origin.operation (mintPredicateIri origin.author origin.operation))
  | continued {id : Bytes32} {previous : KnotPredicateDefinitionV1}
      (named : proposal.supersedes = some id) (found : catalog.definition id = some previous)
      (author : previous.author = origin.author)
      (observed : causal.happensBefore previous.id origin.operation = true)
      (slug : previous.slug = proposal.slug) :
      Admission causal catalog origin proposal (proposal.define origin previous.root previous.iri)

def PredicateProposal.validate (proposal : PredicateProposal) : Except String Unit :=
  validatePredicateDefinitionPayload proposal.slug proposal.label proposal.description
    proposal.subpropertyOf proposal.lowersTo

theorem predicateRoot_ok_iff {root : Bytes32} {iri : String} :
    predicateRoot catalog causal origin proposal = .ok (root, iri) ↔
      (proposal.supersedes = none ∧ root = origin.operation ∧
        iri = mintPredicateIri origin.author origin.operation) ∨
      ∃ id previous, proposal.supersedes = some id ∧ catalog.definition id = some previous ∧
        previous.author = origin.author ∧
        causal.happensBefore previous.id origin.operation = true ∧
        previous.slug = proposal.slug ∧ root = previous.root ∧ iri = previous.iri := by
  rw [predicateRoot]
  cases proposal.supersedes with
  | none =>
    simp only [Except.ok.injEq, Prod.mk.injEq, true_and, reduceCtorEq, false_and, exists_false,
      or_false]
    exact and_congr eq_comm eq_comm
  | some id =>
    cases found : catalog.definition id with
    | none => simp [found]
    | some previous =>
      by_cases author : previous.author = origin.author
      · cases observed : causal.happensBefore previous.id origin.operation with
        | false => simp [found, author, observed]
        | true =>
          by_cases slug : previous.slug = proposal.slug
          · simp only [author, observed, slug, found, bne_self_eq_false, Bool.not_true,
              Bool.false_eq_true, if_false, Except.ok.injEq, Prod.mk.injEq, reduceCtorEq,
              false_and, false_or, Option.some.injEq, exists_and_left, exists_eq_left',
              true_and]
            exact and_congr eq_comm eq_comm
          · simp [found, author, observed, slug]
      · simp [found, author]

theorem foldPredicateDefinition_ok_iff :
    foldPredicateDefinition catalog causal origin proposal = .ok definition ↔
      proposal.validate = .ok () ∧ Admission causal catalog origin proposal definition := by
  simp only [foldPredicateDefinition, bind_eq_ok_iff]
  constructor
  · rintro ⟨_, payload, ⟨root, iri⟩, rooted, accepted⟩
    refine ⟨payload, ?_⟩
    rcases predicateRoot_ok_iff.mp rooted with ⟨fresh, rfl, rfl⟩ |
      ⟨id, previous, named, found, author, observed, slug, rfl, rfl⟩
    · cases live : slugIsLive catalog origin.author origin.scope proposal.slug with
      | true => simp [fresh, live] at accepted
      | false =>
        simp only [live, Bool.and_false, Bool.false_eq_true, if_false, Except.ok.injEq]
          at accepted
        rw [← accepted]
        exact .minted fresh live
    · simp only [named, Option.isNone_some, Bool.false_and, Bool.false_eq_true, if_false,
        Except.ok.injEq] at accepted
      rw [← accepted]
      exact .continued named found author observed slug
  · rintro ⟨payload, admission⟩
    cases admission with
    | minted fresh free =>
      refine ⟨(), payload, _, predicateRoot_ok_iff.mpr (.inl ⟨fresh, rfl, rfl⟩), ?_⟩
      simp [free]
    | continued named found author observed slug =>
      refine ⟨(), payload, _, predicateRoot_ok_iff.mpr
        (.inr ⟨_, _, named, found, author, observed, slug, rfl, rfl⟩), ?_⟩
      simp [named]

end

namespace KnotPredicateCatalogV1

variable {catalog : KnotPredicateCatalogV1} {id : Bytes32}
variable {definition : KnotPredicateDefinitionV1}

theorem definition_spec (found : catalog.definition id = some definition) :
    definition ∈ catalog.definitions ∧ definition.id = id :=
  ⟨List.mem_of_find?_eq_some found, by simpa using List.find?_some found⟩

theorem definition_of_mem (member : definition ∈ catalog.definitions) :
    ∃ first, catalog.definition definition.id = some first := by
  cases found : catalog.definition definition.id with
  | some first => exact ⟨first, rfl⟩
  | none => simpa using List.find?_eq_none.mp found definition member

end KnotPredicateCatalogV1

def Sourced (events : Operation → Option KnotSyncEvent) (scope : Bytes32) (order : List Operation)
    (catalog : KnotPredicateCatalogV1) : Prop :=
  ∀ definition ∈ catalog.definitions, ∃ operation ∈ order, ∃ proposal,
    proposed events operation = some proposal ∧
      definition = proposal.define (originOf scope operation) definition.root definition.iri

def StableRoots (catalog : KnotPredicateCatalogV1) : Prop :=
  ∀ first ∈ catalog.definitions, ∀ second ∈ catalog.definitions,
    first.id = second.id → first.root = second.root

/-- Every chain is rooted at a mint of the same author and slug, each link points backwards, and a
slug has one live root at most. -/
structure CatalogInvariant (events : Operation → Option KnotSyncEvent) (scope : Bytes32)
    (order : List Operation) (catalog : KnotPredicateCatalogV1) : Prop where
  source : Sourced events scope order catalog
  stable : StableRoots catalog
  rooted : ∀ definition ∈ catalog.definitions, ∃ root ∈ catalog.definitions,
    root.id = definition.root ∧ root.root = definition.root ∧ root.supersedes = none ∧
      root.author = definition.author ∧ root.slug = definition.slug
  minted : ∀ definition ∈ catalog.definitions,
    definition.iri = mintPredicateIri definition.author definition.root
  unlinked : ∀ definition ∈ catalog.definitions, definition.supersedes = none →
    definition.root = definition.id
  linked : ∀ front definition back previous, catalog.definitions = front ++ definition :: back →
    definition.supersedes = some previous →
      ∃ earlier ∈ front, earlier.id = previous ∧ earlier.root = definition.root
  unique : ∀ first ∈ catalog.definitions, ∀ second ∈ catalog.definitions,
    first.root = first.id → second.root = second.id → first.author = second.author →
      first.slug = second.slug → catalog.isRetired first.id = false →
        catalog.isRetired second.id = false → first.id = second.id

section

variable {events : Operation → Option KnotSyncEvent} {causal : CausalIndex} {scope : Bytes32}
variable {order : List Operation} {catalog : KnotPredicateCatalogV1} {operation : Operation}
variable {first second definition : KnotPredicateDefinitionV1}

theorem Sourced.same_payload (source : Sourced events scope order catalog)
    (identify : HashesIdentify order) (firstFound : first ∈ catalog.definitions)
    (secondFound : second ∈ catalog.definitions) (same : first.id = second.id) :
    first.author = second.author ∧ first.slug = second.slug ∧
      first.supersedes = second.supersedes := by
  obtain ⟨left, leftFound, leftProposal, leftProposed, leftDefined⟩ := source first firstFound
  obtain ⟨right, rightFound, rightProposal, rightProposed, rightDefined⟩ :=
    source second secondFound
  rw [leftDefined, rightDefined] at same
  have operations : left = right := identify left leftFound right rightFound same
  subst operations
  rw [leftProposed, Option.some.injEq] at rightProposed
  subst rightProposed
  rw [leftDefined, rightDefined]
  exact ⟨rfl, rfl, rfl⟩

theorem Sourced.scope_eq (source : Sourced events scope order catalog)
    (found : definition ∈ catalog.definitions) : definition.scope = scope := by
  obtain ⟨operation, _, proposal, _, defined⟩ := source definition found
  rw [defined]
  rfl

theorem StableRoots.rootOf_eq (stable : StableRoots catalog)
    (found : definition ∈ catalog.definitions) :
    catalog.rootOf definition.id = some definition.root := by
  obtain ⟨first, read⟩ := KnotPredicateCatalogV1.definition_of_mem found
  obtain ⟨member, same⟩ := KnotPredicateCatalogV1.definition_spec read
  rw [KnotPredicateCatalogV1.rootOf, read, Option.map_some,
    stable first member definition found same]

theorem StableRoots.isRetired_iff (stable : StableRoots catalog)
    (found : definition ∈ catalog.definitions) :
    catalog.isRetired definition.id = true ↔ ∃ later ∈ catalog.definitions,
      later.root = definition.root ∧ later.replacedBy.isSome = true := by
  rw [KnotPredicateCatalogV1.isRetired, stable.rootOf_eq found]
  simp

theorem admitted_eq_some_iff :
    admitted events causal scope catalog operation = some definition ↔
      ∃ proposal, proposed events operation = some proposal ∧ proposal.validate = .ok () ∧
        Admission causal catalog (originOf scope operation) proposal definition := by
  simp only [admitted, Option.bind_eq_some_iff, toOption_eq_some_iff,
    foldPredicateDefinition_ok_iff]

theorem admitted_signed (admits : admitted events causal scope catalog operation = some definition) :
    definition.id = operation.hash ∧ definition.author = operation.author := by
  obtain ⟨proposal, _, _, admission⟩ := admitted_eq_some_iff.mp admits
  cases admission <;> exact ⟨rfl, rfl⟩

theorem admitted_marks (events : Operation → Option KnotSyncEvent) (causal : CausalIndex)
    (scope : Bytes32) (front : List Operation) (operation : Operation) :
    ∀ definition ∈ (admitted events causal scope (replayCatalog events causal scope front)
      operation).toList, definition.id = operation.hash :=
  fun _ admits => (admitted_signed (Option.mem_toList.mp admits)).1

theorem mem_grown_iff {grown : KnotPredicateCatalogV1}
    (appended : grown.definitions = catalog.definitions ++ [definition]) :
    first ∈ grown.definitions ↔ first ∈ catalog.definitions ∨ first = definition := by
  rw [appended, List.mem_append, List.mem_singleton]

end

namespace CatalogInvariant

variable {events : Operation → Option KnotSyncEvent} {causal : CausalIndex} {scope : Bytes32}
variable {order : List Operation} {catalog grown : KnotPredicateCatalogV1} {operation : Operation}
variable {first second definition : KnotPredicateDefinitionV1}

theorem empty : CatalogInvariant events scope [] {} where
  source := fun _ member => absurd member List.not_mem_nil
  stable := fun _ member => absurd member List.not_mem_nil
  rooted := fun _ member => absurd member List.not_mem_nil
  minted := fun _ member => absurd member List.not_mem_nil
  unlinked := fun _ member => absurd member List.not_mem_nil
  linked := by simp
  unique := fun _ member => absurd member List.not_mem_nil

theorem uniform (invariant : CatalogInvariant events scope order catalog)
    (identify : HashesIdentify order) (firstFound : first ∈ catalog.definitions)
    (secondFound : second ∈ catalog.definitions) (same : first.root = second.root) :
    first.author = second.author ∧ first.slug = second.slug ∧ first.scope = second.scope ∧
      first.iri = second.iri := by
  obtain ⟨left, leftFound, leftId, _, _, leftAuthor, leftSlug⟩ := invariant.rooted first firstFound
  obtain ⟨right, rightFound, rightId, _, _, rightAuthor, rightSlug⟩ :=
    invariant.rooted second secondFound
  obtain ⟨author, slug, _⟩ := invariant.source.same_payload identify leftFound rightFound
    (by rw [leftId, rightId, same])
  have authors : first.author = second.author := by rw [← leftAuthor, ← rightAuthor, author]
  refine ⟨authors, by rw [← leftSlug, ← rightSlug, slug], ?_, ?_⟩
  · rw [invariant.source.scope_eq firstFound, invariant.source.scope_eq secondFound]
  · rw [invariant.minted first firstFound, invariant.minted second secondFound, authors, same]

theorem source_step (invariant : CatalogInvariant events scope order catalog)
    (admits : admitted events causal scope catalog operation = some definition)
    (appended : grown.definitions = catalog.definitions ++ [definition]) :
    Sourced events scope (order ++ [operation]) grown := by
  obtain ⟨proposal, proposes, _, admission⟩ := admitted_eq_some_iff.mp admits
  intro found member
  rcases (mem_grown_iff appended).mp member with earlier | rfl
  · obtain ⟨author, authorFound, rest⟩ := invariant.source found earlier
    exact ⟨author, by simp [authorFound], rest⟩
  · refine ⟨operation, by simp, proposal, proposes, ?_⟩
    cases admission <;> rfl

theorem root_eq_newest (invariant : CatalogInvariant events scope order catalog)
    (identify : HashesIdentify (order ++ [operation]))
    (admits : admitted events causal scope catalog operation = some definition)
    (appended : grown.definitions = catalog.definitions ++ [definition])
    (found : first ∈ catalog.definitions) (same : first.id = definition.id) :
    first.root = definition.root := by
  obtain ⟨_, _, payload⟩ := (invariant.source_step admits appended).same_payload identify
    ((mem_grown_iff appended).mpr (.inl found)) ((mem_grown_iff appended).mpr (.inr rfl)) same
  obtain ⟨proposal, _, _, admission⟩ := admitted_eq_some_iff.mp admits
  cases admission with
  | minted fresh =>
    rw [invariant.unlinked first found (payload.trans fresh), same]
    rfl
  | @continued id previous named read =>
    obtain ⟨front, back, split⟩ := List.append_of_mem found
    obtain ⟨earlier, inFront, earlierId, earlierRoot⟩ :=
      invariant.linked front first back id split (payload.trans named)
    obtain ⟨previousFound, previousId⟩ := KnotPredicateCatalogV1.definition_spec read
    have earlierFound : earlier ∈ catalog.definitions := by
      rw [split]
      exact List.mem_append_left _ inFront
    rw [← earlierRoot]
    exact invariant.stable earlier earlierFound previous previousFound
      (earlierId.trans previousId.symm)

theorem stable_step (invariant : CatalogInvariant events scope order catalog)
    (identify : HashesIdentify (order ++ [operation]))
    (admits : admitted events causal scope catalog operation = some definition)
    (appended : grown.definitions = catalog.definitions ++ [definition]) : StableRoots grown := by
  intro left leftFound right rightFound same
  rcases (mem_grown_iff appended).mp leftFound with leftEarlier | rfl
  · rcases (mem_grown_iff appended).mp rightFound with rightEarlier | rfl
    · exact invariant.stable left leftEarlier right rightEarlier same
    · exact invariant.root_eq_newest identify admits appended leftEarlier same
  · rcases (mem_grown_iff appended).mp rightFound with rightEarlier | rfl
    · exact (invariant.root_eq_newest identify admits appended rightEarlier same.symm).symm
    · rfl

theorem rooted_step (invariant : CatalogInvariant events scope order catalog)
    (admits : admitted events causal scope catalog operation = some definition)
    (appended : grown.definitions = catalog.definitions ++ [definition]) :
    ∀ found ∈ grown.definitions, ∃ root ∈ grown.definitions,
      root.id = found.root ∧ root.root = found.root ∧ root.supersedes = none ∧
        root.author = found.author ∧ root.slug = found.slug := by
  intro found member
  rcases (mem_grown_iff appended).mp member with earlier | rfl
  · obtain ⟨root, rootFound, rest⟩ := invariant.rooted found earlier
    exact ⟨root, (mem_grown_iff appended).mpr (.inl rootFound), rest⟩
  · obtain ⟨proposal, _, _, admission⟩ := admitted_eq_some_iff.mp admits
    cases admission with
    | minted fresh => exact ⟨_, by simp [appended], rfl, rfl, fresh, rfl, rfl⟩
    | @continued id previous named read author observed slug =>
      obtain ⟨previousFound, _⟩ := KnotPredicateCatalogV1.definition_spec read
      obtain ⟨root, rootFound, rootId, rootRoot, rootFresh, rootAuthor, rootSlug⟩ :=
        invariant.rooted previous previousFound
      exact ⟨root, (mem_grown_iff appended).mpr (.inl rootFound), rootId, rootRoot, rootFresh,
        rootAuthor.trans author, rootSlug.trans slug⟩

theorem linked_step (invariant : CatalogInvariant events scope order catalog)
    (admits : admitted events causal scope catalog operation = some definition)
    (appended : grown.definitions = catalog.definitions ++ [definition]) :
    ∀ front found back previous, grown.definitions = front ++ found :: back →
      found.supersedes = some previous →
        ∃ earlier ∈ front, earlier.id = previous ∧ earlier.root = found.root := by
  intro front found back previous split names
  rw [appended] at split
  rcases Accumulations.append_singleton_eq_iff.mp split with ⟨rfl, rfl, _⟩ | ⟨rest, _, before⟩
  · obtain ⟨proposal, _, _, admission⟩ := admitted_eq_some_iff.mp admits
    cases admission with
    | minted fresh => exact absurd (names.symm.trans fresh) (by simp)
    | @continued id earlier named read =>
      obtain ⟨earlierFound, earlierId⟩ := KnotPredicateCatalogV1.definition_spec read
      have same : some id = some previous := named.symm.trans names
      cases same
      exact ⟨earlier, earlierFound, earlierId, rfl⟩
  · exact invariant.linked front found rest previous before names

theorem unlinked_step (invariant : CatalogInvariant events scope order catalog)
    (admits : admitted events causal scope catalog operation = some definition)
    (appended : grown.definitions = catalog.definitions ++ [definition]) :
    ∀ found ∈ grown.definitions, found.supersedes = none → found.root = found.id := by
  intro found member fresh
  rcases (mem_grown_iff appended).mp member with earlier | rfl
  · exact invariant.unlinked found earlier fresh
  · obtain ⟨proposal, _, _, admission⟩ := admitted_eq_some_iff.mp admits
    cases admission with
    | minted => rfl
    | continued named => exact absurd (named.symm.trans fresh) (by simp)

theorem minted_step (invariant : CatalogInvariant events scope order catalog)
    (admits : admitted events causal scope catalog operation = some definition)
    (appended : grown.definitions = catalog.definitions ++ [definition]) :
    ∀ found ∈ grown.definitions, found.iri = mintPredicateIri found.author found.root := by
  intro found member
  rcases (mem_grown_iff appended).mp member with earlier | rfl
  · exact invariant.minted found earlier
  · obtain ⟨proposal, _, _, admission⟩ := admitted_eq_some_iff.mp admits
    cases admission with
    | minted => rfl
    | @continued id previous named read author =>
      obtain ⟨previousFound, _⟩ := KnotPredicateCatalogV1.definition_spec read
      have iri := invariant.minted previous previousFound
      rw [author] at iri
      exact iri

theorem live_of_grown (invariant : CatalogInvariant events scope order catalog)
    (stable : StableRoots grown)
    (appended : grown.definitions = catalog.definitions ++ [definition])
    (found : first ∈ catalog.definitions) (live : grown.isRetired first.id = false) :
    catalog.isRetired first.id = false := by
  cases retired : catalog.isRetired first.id with
  | false => rfl
  | true =>
    obtain ⟨later, laterFound, marks⟩ := (invariant.stable.isRetired_iff found).mp retired
    have grows := (stable.isRetired_iff ((mem_grown_iff appended).mpr (.inl found))).mpr
      ⟨later, (mem_grown_iff appended).mpr (.inl laterFound), marks⟩
    rw [live] at grows
    cases grows

theorem no_live_root (invariant : CatalogInvariant events scope order catalog)
    (identify : HashesIdentify (order ++ [operation]))
    (admits : admitted events causal scope catalog operation = some definition)
    (appended : grown.definitions = catalog.definitions ++ [definition])
    (found : first ∈ catalog.definitions) (root : first.root = first.id)
    (newRoot : definition.root = definition.id) (author : first.author = definition.author)
    (slug : first.slug = definition.slug) : catalog.isRetired first.id = true := by
  by_contra live
  rw [Bool.not_eq_true] at live
  obtain ⟨proposal, _, _, admission⟩ := admitted_eq_some_iff.mp admits
  cases admission with
  | minted fresh free =>
    rw [slugIsLive, List.any_eq_false] at free
    have sameScope := invariant.source.scope_eq found
    exact free first found (by
      simp only [root, author, sameScope, slug, live, PredicateProposal.define, originOf,
        beq_self_eq_true, Bool.and_self, Bool.not_false])
  | @continued id previous named read =>
    -- A continued definition that was its own root would be a mint under its own hash.
    have newest := (mem_grown_iff appended).mpr (.inr rfl)
    obtain ⟨mint, mintFound, mintId, _, mintFresh, _⟩ :=
      invariant.rooted_step admits appended _ newest
    obtain ⟨_, _, payload⟩ := (invariant.source_step admits appended).same_payload identify
      mintFound newest (mintId.trans newRoot)
    rw [mintFresh] at payload
    exact absurd (payload.trans named) (by simp)

theorem unique_step (invariant : CatalogInvariant events scope order catalog)
    (identify : HashesIdentify (order ++ [operation]))
    (admits : admitted events causal scope catalog operation = some definition)
    (appended : grown.definitions = catalog.definitions ++ [definition]) :
    ∀ first ∈ grown.definitions, ∀ second ∈ grown.definitions,
      first.root = first.id → second.root = second.id → first.author = second.author →
        first.slug = second.slug → grown.isRetired first.id = false →
          grown.isRetired second.id = false → first.id = second.id := by
  have stable := invariant.stable_step identify admits appended
  have live {found : KnotPredicateDefinitionV1} (member : found ∈ catalog.definitions) :=
    invariant.live_of_grown stable appended member
  have clash {found : KnotPredicateDefinitionV1} (member : found ∈ catalog.definitions) :=
    invariant.no_live_root identify admits appended member
  intro first firstFound second secondFound firstRoot secondRoot author slug firstLive secondLive
  rcases (mem_grown_iff appended).mp firstFound with firstEarlier | rfl
  · rcases (mem_grown_iff appended).mp secondFound with secondEarlier | rfl
    · exact invariant.unique first firstEarlier second secondEarlier firstRoot secondRoot author
        slug (live firstEarlier firstLive) (live secondEarlier secondLive)
    · have retired := clash firstEarlier firstRoot secondRoot author slug
      rw [live firstEarlier firstLive] at retired
      cases retired
  · rcases (mem_grown_iff appended).mp secondFound with secondEarlier | rfl
    · have retired := clash secondEarlier secondRoot firstRoot author.symm slug.symm
      rw [live secondEarlier secondLive] at retired
      cases retired
    · rfl

theorem step (invariant : CatalogInvariant events scope order catalog)
    (identify : HashesIdentify (order ++ [operation]))
    (admits : admitted events causal scope catalog operation = some definition)
    (appended : grown.definitions = catalog.definitions ++ [definition]) :
    CatalogInvariant events scope (order ++ [operation]) grown where
  source := invariant.source_step admits appended
  stable := invariant.stable_step identify admits appended
  rooted := invariant.rooted_step admits appended
  minted := invariant.minted_step admits appended
  unlinked := invariant.unlinked_step admits appended
  linked := invariant.linked_step admits appended
  unique := invariant.unique_step identify admits appended

theorem pass (invariant : CatalogInvariant events scope order catalog)
    (kept : grown.definitions = catalog.definitions) :
    CatalogInvariant events scope (order ++ [operation]) grown := by
  have source : Sourced events scope (order ++ [operation]) catalog := by
    intro definition member
    obtain ⟨author, authorFound, rest⟩ := invariant.source definition member
    exact ⟨author, by simp [authorFound], rest⟩
  obtain ⟨definitions, rejected⟩ := catalog
  obtain ⟨grownDefinitions, grownRejected⟩ := grown
  subst kept
  exact {
    source := source
    stable := invariant.stable
    rooted := invariant.rooted
    minted := invariant.minted
    unlinked := invariant.unlinked
    linked := invariant.linked
    unique := invariant.unique }

end CatalogInvariant

theorem replayCatalog_invariant (events : Operation → Option KnotSyncEvent)
    (causal : CausalIndex) (scope : Bytes32) {order : List Operation}
    (identify : HashesIdentify order) :
    CatalogInvariant events scope order (replayCatalog events causal scope order) := by
  induction order using List.reverseRecOn with
  | nil => exact CatalogInvariant.empty
  | append_singleton front operation ih =>
    have earlier := ih (identify.sublist (List.sublist_append_left front [operation]))
    have grows := replayCatalog_append_singleton events causal scope front operation
    cases admits : admitted events causal scope (replayCatalog events causal scope front)
        operation with
    | none =>
      rw [admits, Option.toList_none, List.append_nil] at grows
      exact earlier.pass grows
    | some definition =>
      rw [admits, Option.toList_some] at grows
      exact earlier.step identify admits grows

def KnotPredicateCatalogV1.ownedBy (catalog : KnotPredicateCatalogV1) (author : Bytes32) :
    KnotPredicateCatalogV1 where
  definitions := catalog.definitions.filter fun definition => definition.author == author

@[simp] theorem KnotPredicateCatalogV1.ownedBy_definitions (catalog : KnotPredicateCatalogV1)
    (author : Bytes32) : (catalog.ownedBy author).definitions =
      catalog.definitions.filter fun definition => definition.author == author := rfl

theorem find?_filter_of_find? {α : Type} {items : List α} {wanted kept : α → Bool} {found : α}
    (read : items.find? wanted = some found) (keeps : kept found = true) :
    (items.filter kept).find? wanted = some found := by
  rw [List.find?_filter]
  induction items with
  | nil => simp at read
  | cons head rest ih =>
    rw [List.find?_cons] at read ⊢
    cases matched : wanted head with
    | true =>
      rw [matched] at read
      cases read
      simp [keeps]
    | false =>
      rw [matched] at read
      simpa using ih read

namespace CatalogInvariant

variable {events : Operation → Option KnotSyncEvent} {causal : CausalIndex} {scope : Bytes32}
variable {order : List Operation} {catalog : KnotPredicateCatalogV1} {operation : Operation}
variable {definition : KnotPredicateDefinitionV1} {id author : Bytes32}

theorem definition_ownedBy (invariant : CatalogInvariant events scope order catalog)
    (identify : HashesIdentify order) (id author : Bytes32) :
    (catalog.ownedBy author).definition id =
      (catalog.definition id).filter fun definition => definition.author == author := by
  cases found : catalog.definition id with
  | none =>
    refine List.find?_eq_none.mpr fun definition member => ?_
    exact List.find?_eq_none.mp found definition (List.mem_filter.mp member).1
  | some first =>
    obtain ⟨firstFound, firstId⟩ := KnotPredicateCatalogV1.definition_spec found
    by_cases mine : first.author = author
    · rw [Option.filter_some, if_pos (by simpa using mine)]
      exact find?_filter_of_find? found (by simpa using mine)
    · rw [Option.filter_some, if_neg (by simpa using mine)]
      refine List.find?_eq_none.mpr fun other member => ?_
      obtain ⟨otherFound, otherMine⟩ := List.mem_filter.mp member
      intro same
      rw [beq_iff_eq] at same otherMine
      have payload := invariant.source.same_payload identify firstFound otherFound
        (firstId.trans same.symm)
      exact mine (payload.1.trans otherMine)

theorem current_ownedBy (invariant : CatalogInvariant events scope order catalog)
    (identify : HashesIdentify order) (found : catalog.definition id = some definition) :
    (catalog.ownedBy definition.author).current id = catalog.current id := by
  obtain ⟨member, _⟩ := KnotPredicateCatalogV1.definition_spec found
  simp only [KnotPredicateCatalogV1.current, KnotPredicateCatalogV1.rootOf]
  rw [invariant.definition_ownedBy identify id, found, Option.filter_some,
    if_pos (by simp)]
  simp only [Option.map_some, Option.bind_eq_bind, Option.bind_some]
  rw [KnotPredicateCatalogV1.ownedBy, ← List.filter_reverse, List.find?_filter]
  refine List.find?_congr fun other otherFound => ?_
  rw [List.mem_reverse] at otherFound
  by_cases same : other.root = definition.root
  · simp [same, (invariant.uniform identify otherFound member same).1]
  · simp [same]

theorem isRetired_ownedBy (invariant : CatalogInvariant events scope order catalog)
    (identify : HashesIdentify order) (found : catalog.definition id = some definition) :
    (catalog.ownedBy definition.author).isRetired id = catalog.isRetired id := by
  obtain ⟨member, _⟩ := KnotPredicateCatalogV1.definition_spec found
  simp only [KnotPredicateCatalogV1.isRetired, KnotPredicateCatalogV1.rootOf]
  rw [invariant.definition_ownedBy identify id, found, Option.filter_some, if_pos (by simp)]
  simp only [Option.map_some, Option.any_some]
  rw [KnotPredicateCatalogV1.ownedBy, List.any_filter, Bool.eq_iff_iff, List.any_eq_true,
    List.any_eq_true]
  refine exists_congr fun other => and_congr_right fun otherFound => ?_
  by_cases same : other.root = definition.root
  · simp [same, (invariant.uniform identify otherFound member same).1]
  · simp [same]

theorem slugIsLive_ownedBy (invariant : CatalogInvariant events scope order catalog)
    (identify : HashesIdentify order) (slug : String) :
    slugIsLive (catalog.ownedBy author) author scope slug =
      slugIsLive catalog author scope slug := by
  simp only [slugIsLive]
  rw [Bool.eq_iff_iff, List.any_eq_true, List.any_eq_true]
  constructor
  · rintro ⟨found, member, marks⟩
    obtain ⟨inCatalog, mine⟩ := List.mem_filter.mp member
    obtain ⟨first, read⟩ := KnotPredicateCatalogV1.definition_of_mem inCatalog
    obtain ⟨firstFound, firstId⟩ := KnotPredicateCatalogV1.definition_spec read
    have author := (invariant.source.same_payload identify firstFound inCatalog firstId).1
    have retired := invariant.isRetired_ownedBy identify read
    rw [author, beq_iff_eq.mp mine] at retired
    rw [retired] at marks
    exact ⟨found, inCatalog, marks⟩
  · rintro ⟨found, inCatalog, marks⟩
    have mine : (found.author == author) = true := by
      simp only [Bool.and_eq_true] at marks
      exact marks.1.1.1.2
    obtain ⟨first, read⟩ := KnotPredicateCatalogV1.definition_of_mem inCatalog
    obtain ⟨firstFound, firstId⟩ := KnotPredicateCatalogV1.definition_spec read
    have sameAuthor := (invariant.source.same_payload identify firstFound inCatalog firstId).1
    have retired := invariant.isRetired_ownedBy identify read
    rw [sameAuthor, beq_iff_eq.mp mine] at retired
    rw [← retired] at marks
    exact ⟨found, List.mem_filter.mpr ⟨inCatalog, mine⟩, marks⟩

theorem admitted_ownedBy (invariant : CatalogInvariant events scope order catalog)
    (identify : HashesIdentify order) :
    admitted events causal scope (catalog.ownedBy operation.author) operation =
      admitted events causal scope catalog operation := by
  refine Option.ext fun definition => ?_
  rw [admitted_eq_some_iff, admitted_eq_some_iff]
  refine exists_congr fun proposal => and_congr_right fun _ => and_congr_right fun _ => ?_
  have lookup (id : Bytes32) :=
    invariant.definition_ownedBy identify id operation.author
  constructor
  · intro admission
    cases admission with
    | minted fresh free =>
      exact .minted fresh ((invariant.slugIsLive_ownedBy identify proposal.slug).symm.trans free)
    | continued named found author observed slug =>
      rw [lookup, Option.filter_eq_some_iff] at found
      exact .continued named found.1 author observed slug
  · intro admission
    cases admission with
    | minted fresh free =>
      exact .minted fresh ((invariant.slugIsLive_ownedBy identify proposal.slug).trans free)
    | continued named found author observed slug =>
      refine .continued named ?_ author observed slug
      rw [lookup, Option.filter_eq_some_iff]
      exact ⟨found, by simpa [originOf] using author⟩

end CatalogInvariant

theorem admitted_congr {events : Operation → Option KnotSyncEvent} {causal : CausalIndex}
    {scope : Bytes32} {catalog other : KnotPredicateCatalogV1} (operation : Operation)
    (same : catalog.definitions = other.definitions) :
    admitted events causal scope catalog operation =
      admitted events causal scope other operation := by
  obtain ⟨definitions, rejected⟩ := catalog
  obtain ⟨otherDefinitions, otherRejected⟩ := other
  subst same
  rfl

theorem historyCatalog_definitions (events : Operation → Option KnotSyncEvent)
    (causal : CausalIndex) (scope : Bytes32) (order : List Operation) :
    (historyCatalog events causal scope order).definitions =
      (replayCatalog events causal scope order).definitions := by
  induction order using List.reverseRecOn with
  | nil => rfl
  | append_singleton front operation ih =>
    rw [replayCatalog_append_singleton, ← ih, ← admitted_congr operation ih]
    simp [historyCatalog]

theorem replayCatalog_filter_author (events : Operation → Option KnotSyncEvent)
    (causal : CausalIndex) (scope : Bytes32) {order : List Operation}
    (identify : HashesIdentify order) (author : Bytes32) :
    (replayCatalog events causal scope
      (order.filter fun operation => operation.author == author)).definitions =
      ((replayCatalog events causal scope order).ownedBy author).definitions := by
  induction order using List.reverseRecOn with
  | nil => rfl
  | append_singleton front operation ih =>
    have earlier := identify.sublist (List.sublist_append_left front [operation])
    have invariant := replayCatalog_invariant events causal scope earlier
    have own := ih earlier
    have kept : (admitted events causal scope (replayCatalog events causal scope front)
        operation).toList.filter (fun definition => definition.author == author) =
        if operation.author = author then
          (admitted events causal scope (replayCatalog events causal scope front)
            operation).toList
        else [] := by
      cases admits : admitted events causal scope (replayCatalog events causal scope front)
          operation with
      | none => simp
      | some definition => simp [List.filter_singleton, (admitted_signed admits).2]
    rw [KnotPredicateCatalogV1.ownedBy_definitions, replayCatalog_append_singleton,
      List.filter_append, List.filter_append, kept,
      ← KnotPredicateCatalogV1.ownedBy_definitions, ← own]
    by_cases mine : operation.author = author
    · subst mine
      rw [List.filter_singleton, beq_self_eq_true, cond_true, if_pos rfl,
        replayCatalog_append_singleton, admitted_congr operation own,
        invariant.admitted_ownedBy earlier]
    · rw [List.filter_singleton, beq_false_of_ne mine, cond_false, if_neg mine, List.append_nil,
        List.append_nil]

structure WellChained (catalog : KnotPredicateCatalogV1) : Prop where
  rooted : ∀ definition ∈ catalog.definitions, ∃ root,
    catalog.definition definition.root = some root ∧ root.root = root.id
  uniform : ∀ first ∈ catalog.definitions, ∀ second ∈ catalog.definitions,
    first.root = second.root → first.author = second.author ∧ first.slug = second.slug ∧
      first.scope = second.scope ∧ first.iri = second.iri
  minted : ∀ definition ∈ catalog.definitions,
    definition.iri = mintPredicateIri definition.author definition.root
  linked : ∀ front definition back previous, catalog.definitions = front ++ definition :: back →
    definition.supersedes = some previous →
      ∃ earlier ∈ front, earlier.id = previous ∧ earlier.root = definition.root
  unique : ∀ first ∈ catalog.definitions, ∀ second ∈ catalog.definitions,
    first.root = first.id → second.root = second.id → first.author = second.author →
      first.scope = second.scope → first.slug = second.slug →
        catalog.isRetired first.id = false → catalog.isRetired second.id = false →
          first.id = second.id

theorem CatalogInvariant.wellChained {events : Operation → Option KnotSyncEvent}
    {scope : Bytes32} {order : List Operation} {catalog : KnotPredicateCatalogV1}
    (invariant : CatalogInvariant events scope order catalog) (identify : HashesIdentify order) :
    WellChained catalog where
  rooted := by
    intro definition member
    obtain ⟨mint, mintFound, mintId, mintRoot, _⟩ := invariant.rooted definition member
    obtain ⟨root, read⟩ := KnotPredicateCatalogV1.definition_of_mem mintFound
    obtain ⟨rootFound, rootId⟩ := KnotPredicateCatalogV1.definition_spec read
    refine ⟨root, by rw [← mintId]; exact read, ?_⟩
    rw [invariant.stable root rootFound mint mintFound rootId, mintRoot, rootId, mintId]
  uniform := fun _ firstFound _ secondFound same =>
    invariant.uniform identify firstFound secondFound same
  minted := invariant.minted
  linked := invariant.linked
  unique := fun first firstFound second secondFound firstRoot secondRoot author _ slug =>
    invariant.unique first firstFound second secondFound firstRoot secondRoot author slug

section

variable (events : Operation → Option KnotSyncEvent) (causal : CausalIndex) (scope : Bytes32)
variable {order other : List Operation} {id : Bytes32} {definition : KnotPredicateDefinitionV1}

theorem replayCatalog_ownedBy_eq (identify : HashesIdentify order)
    (otherIdentify : HashesIdentify other) (author : Bytes32)
    (same : (other.filter fun operation => operation.author == author) =
      order.filter fun operation => operation.author == author) :
    (replayCatalog events causal scope other).ownedBy author =
      (replayCatalog events causal scope order).ownedBy author := by
  have definitions := replayCatalog_filter_author events causal scope otherIdentify author
  rw [same, replayCatalog_filter_author events causal scope identify author] at definitions
  unfold KnotPredicateCatalogV1.ownedBy at definitions ⊢
  simp only at definitions
  rw [definitions]

theorem replayCatalog_chain_eq (identify : HashesIdentify order)
    (otherIdentify : HashesIdentify other)
    (found : (replayCatalog events causal scope order).definition id = some definition)
    (same : (other.filter fun operation => operation.author == definition.author) =
      order.filter fun operation => operation.author == definition.author) :
    (replayCatalog events causal scope other).definition id = some definition ∧
      (replayCatalog events causal scope other).current id =
        (replayCatalog events causal scope order).current id ∧
      (replayCatalog events causal scope other).isRetired id =
        (replayCatalog events causal scope order).isRetired id := by
  have invariant := replayCatalog_invariant events causal scope identify
  have otherInvariant := replayCatalog_invariant events causal scope otherIdentify
  have owned := replayCatalog_ownedBy_eq events causal scope identify otherIdentify definition.author same
  have read : (replayCatalog events causal scope other).definition id = some definition := by
    have filtered := otherInvariant.definition_ownedBy otherIdentify id definition.author
    rw [owned, invariant.definition_ownedBy identify, found, Option.filter_some,
      if_pos (by simp)] at filtered
    exact (Option.filter_eq_some_iff.mp filtered.symm).1
  refine ⟨read, ?_, ?_⟩
  · rw [← otherInvariant.current_ownedBy otherIdentify read, owned,
      invariant.current_ownedBy identify found]
  · rw [← otherInvariant.isRetired_ownedBy otherIdentify read, owned,
      invariant.isRetired_ownedBy identify found]

end

/-- Every replay leaves well-formed chains, and what a chain says is the minting author's alone. -/
theorem foldRelations_catalog_wellChained (events : Operation → Option KnotSyncEvent)
    (causal : CausalIndex) (scope : Bytes32) (order : List Operation)
    (identify : HashesIdentify order) :
    WellChained (foldRelations order events causal scope).catalog ∧
    ∀ id definition other,
      (foldRelations order events causal scope).catalog.definition id = some definition →
      HashesIdentify other →
      (other.filter fun operation => operation.author == definition.author) =
        (order.filter fun operation => operation.author == definition.author) →
      (foldRelations other events causal scope).catalog.labelOf (.defined id) =
          (foldRelations order events causal scope).catalog.labelOf (.defined id) ∧
        (foldRelations other events causal scope).catalog.iriOf (.defined id) =
          (foldRelations order events causal scope).catalog.iriOf (.defined id) ∧
        (foldRelations other events causal scope).catalog.isRetired id =
          (foldRelations order events causal scope).catalog.isRetired id := by
  refine ⟨(replayCatalog_invariant events causal scope identify).wellChained identify, ?_⟩
  intro id definition other found otherIdentify same
  obtain ⟨_, current, retired⟩ := replayCatalog_chain_eq events causal scope identify otherIdentify
    found same
  simp only [replayCatalog] at current retired
  refine ⟨?_, ?_, retired⟩
  · simp only [KnotPredicateCatalogV1.labelOf, current]
  · simp only [KnotPredicateCatalogV1.iriOf, current]

def renameHistory : List Operation := [.sample 1 10, .sample 2 20, .sample 3 10]

def renameEvents (operation : Operation) : Option KnotSyncEvent :=
  if operation.hash = .filled 1 then
    some (.definePredicate "corroborates" "corroborates" none none none none none)
  else if operation.hash = .filled 2 then
    some (.definePredicate "corroborates" "denies" none none none (some (.filled 1)) none)
  else some (.definePredicate "corroborates" "backs" none none none (some (.filled 1)) none)

theorem foldRelations_catalog_wellChained_renameHistory :
    HashesIdentify renameHistory ∧
    WellChained (foldRelations renameHistory renameEvents .byHash (.filled 0)).catalog ∧
    (foldRelations [.sample 1 10, .sample 3 10] renameEvents .byHash (.filled 0)).catalog.labelOf
        (.defined (.filled 1)) =
      (foldRelations renameHistory renameEvents .byHash (.filled 0)).catalog.labelOf
        (.defined (.filled 1)) := by
  have identify : HashesIdentify renameHistory := hashesIdentify_of_distinct (by decide)
  have chains := foldRelations_catalog_wellChained renameEvents .byHash (.filled 0) renameHistory
    identify
  have read : ((foldRelations renameHistory renameEvents .byHash (.filled 0)).catalog.definition
      (.filled 1)).map KnotPredicateDefinitionV1.author = some (.filled 10) := by decide
  obtain ⟨definition, found, author⟩ := Option.map_eq_some_iff.mp read
  refine ⟨identify, chains.1, (chains.2 _ definition [.sample 1 10, .sample 3 10] found
    (hashesIdentify_of_distinct (by decide)) ?_).1⟩
  rw [author]
  decide

end KnotEditor
