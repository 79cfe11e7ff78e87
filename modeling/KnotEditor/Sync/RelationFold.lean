import KnotEditor.Sync.Event

/-! `fold_relations`: the replay of captures, predicate definitions, assertions and retractions.
An operation whose event the reader cannot decode has no event and is passed over. -/

namespace KnotEditor

structure CausalIndex where
  happensBefore : Bytes32 → Bytes32 → Bool

abbrev HashMap (Value : Type) := Std.ExtTreeMap Bytes32 Value

structure RelationFold where
  relations : List KnotRelationAssertionV1 := []
  rejected : List KnotRejectedRelationV1 := []
  unverified : List KnotUnverifiedRelationV1 := []
  catalog : KnotPredicateCatalogV1 := {}

inductive RelationLocation
  | valid (index : Nat)
  | unverified (index : Nat)
  deriving DecidableEq

structure RelationState where
  author : Bytes32
  location : RelationLocation
  deriving DecidableEq

inductive RelationCaptureError
  | rejected (reason : String)
  | unverified (reason : String)
  deriving DecidableEq

structure PredicateOrigin where
  operation : Bytes32
  author : Bytes32
  scope : Bytes32
  assertedAtMs : Option UInt64

structure PredicateProposal where
  slug : String
  label : String
  description : Option String
  subpropertyOf : Option String
  lowersTo : Option String
  supersedes : Option Bytes32
  replacedBy : Option KnotPredicateReplacementV1

def predicateRoot (catalog : KnotPredicateCatalogV1) (causal : CausalIndex)
    (origin : PredicateOrigin) (proposal : PredicateProposal) : Except String (Bytes32 × String) :=
  match proposal.supersedes with
  | none => .ok (origin.operation, mintPredicateIri origin.author origin.operation)
  | some previous =>
    match catalog.definition previous with
    | none => .error "definition supersedes an unavailable predicate definition"
    | some previous =>
      -- Only the minting key renames or retires.
      if previous.author != origin.author then
        .error "only the minting author may supersede a predicate definition"
      else if !causal.happensBefore previous.id origin.operation then
        .error "definition does not causally observe the definition it supersedes"
      -- The slug is immutable across a chain; the label is the mutable face.
      else if previous.slug != proposal.slug then
        .error "a superseding definition keeps the chain's slug"
      else .ok (previous.root, previous.iri)

def slugIsLive (catalog : KnotPredicateCatalogV1) (author scope : Bytes32) (slug : String) : Bool :=
  catalog.definitions.any fun definition =>
    definition.root == definition.id && definition.author == author &&
      definition.scope == scope && definition.slug == slug && !catalog.isRetired definition.id

def PredicateProposal.define (proposal : PredicateProposal) (origin : PredicateOrigin)
    (root : Bytes32) (iri : String) : KnotPredicateDefinitionV1 where
  id := origin.operation
  author := origin.author
  operation := origin.operation
  scope := origin.scope
  root := root
  iri := iri
  slug := proposal.slug
  label := proposal.label
  description := proposal.description
  subpropertyOf := proposal.subpropertyOf
  lowersTo := proposal.lowersTo
  supersedes := proposal.supersedes
  replacedBy := proposal.replacedBy
  assertedAtMs := origin.assertedAtMs

def foldPredicateDefinition (catalog : KnotPredicateCatalogV1) (causal : CausalIndex)
    (origin : PredicateOrigin) (proposal : PredicateProposal) :
    Except String KnotPredicateDefinitionV1 := do
  validatePredicateDefinitionPayload proposal.slug proposal.label proposal.description
    proposal.subpropertyOf proposal.lowersTo
  let (root, iri) ← predicateRoot catalog causal origin proposal
  -- Cross-author collisions are allowed; the minted IRI disambiguates.
  if proposal.supersedes.isNone && slugIsLive catalog origin.author origin.scope proposal.slug then
    .error s!"predicate slug '{proposal.slug}' is already minted and live for this author in this scope"
  else .ok (proposal.define origin root iri)

def validateAssertedPredicate (catalog : KnotPredicateCatalogV1) (causal : CausalIndex)
    (predicate : KnotPredicateRefV1) (assertion : Bytes32) : Except String Unit :=
  match predicate with
  | .defined id =>
    match catalog.rootOf id with
    | none => .error "relation names an unavailable predicate definition"
    | some root =>
      if !causal.happensBefore id assertion then
        .error "assertion does not causally observe its predicate definition"
      -- A retirement concurrent with the assertion does not reject it.
      else if catalog.definitions.any fun definition =>
          definition.root == root && definition.replacedBy.isSome &&
            causal.happensBefore definition.id assertion then
        .error "relation names a retired predicate definition"
      else .ok ()
  | _ => .ok ()

def validateEndpointCapture (endpoint : KnotRelationEndpointV1) (document : VaultDocument)
    (role : String) : Except RelationCaptureError Unit :=
  match endpoint.position with
  | none => .ok ()
  | some position =>
    match String.fromUTF8? document.body with
    | none => .error (.unverified
        s!"relation {role} document source is not UTF-8 for capture verification")
    | some source =>
      match usizeTryFrom position.start with
      | none => .error (.rejected
          s!"relation {role} UTF-8 byte start cannot fit this platform")
      | some start =>
        match usizeTryFrom position.finish with
        | none => .error (.rejected
            s!"relation {role} UTF-8 byte end cannot fit this platform")
        | some finish =>
          match sourceRange source start finish with
          | none => .error (.rejected
              s!"relation {role} position is not a valid UTF-8 source range")
          | some range =>
            if String.ofList range.inside != endpoint.quote then
              .error (.rejected
                s!"relation {role} quote does not match the captured source range")
            -- Containment, never exact length: only the adjacency is checkable.
            else if !endpoint.prefixText.isEmpty &&
                !endpoint.prefixText.toList.isSuffixOf range.before then
              .error (.rejected
                s!"relation {role} prefix does not precede the captured source range")
            else if !endpoint.suffixText.isEmpty &&
                !endpoint.suffixText.toList.isPrefixOf range.after then
              .error (.rejected
                s!"relation {role} suffix does not follow the captured source range")
            else .ok ()

def validateCapturedEndpoint (operation : Bytes32) (documents : HashMap VaultDocument)
    (causal : CausalIndex) (role : String) (endpoint : KnotRelationEndpointV1) :
    Except RelationCaptureError Unit :=
  match documents[endpoint.documentHead]? with
  | none => .error (.unverified
      s!"relation {role} document head is unavailable for capture verification")
  | some document =>
    if document.id != endpoint.documentId then
      .error (.rejected s!"relation {role} document id does not match its captured head")
    else if !causal.happensBefore endpoint.documentHead operation then
      .error (.rejected
        s!"relation {role} assertion does not causally observe its document head")
    else validateEndpointCapture endpoint document role

def validateRelationCapture (assertion : KnotRelationAssertionV1)
    (documents : HashMap VaultDocument) (causal : CausalIndex) :
    Except RelationCaptureError Unit := do
  validateCapturedEndpoint assertion.operation documents causal "subject" assertion.subject
  validateCapturedEndpoint assertion.operation documents causal "object" assertion.object

def judgeAssertion (catalog : KnotPredicateCatalogV1) (documents : HashMap VaultDocument)
    (causal : CausalIndex) (assertion : KnotRelationAssertionV1) :
    Except RelationCaptureError Unit := do
  (validateRelationPayload assertion.predicate assertion.subject assertion.object).mapError
    .rejected
  (validateAssertedPredicate catalog causal assertion.predicate assertion.operation).mapError
    .rejected
  validateRelationCapture assertion documents causal

structure RelationReplay where
  documents : HashMap VaultDocument := ∅
  assertions : HashMap RelationState := ∅
  fold : RelationFold := {}

namespace RelationReplay

variable (replay : RelationReplay)

def reject (operation : Operation) (reason : String) : RelationReplay :=
  { replay with fold.rejected := replay.fold.rejected ++
      [{ operation := operation.hash, author := operation.author, reason }] }

def locate (operation : Operation) (location : RelationLocation) : HashMap RelationState :=
  replay.assertions.insert operation.hash { author := operation.author, location }

def definePredicate (causal : CausalIndex) (scope : Bytes32) (operation : Operation)
    (proposal : PredicateProposal) : RelationReplay :=
  let origin : PredicateOrigin := {
    operation := operation.hash
    author := operation.author
    scope
    assertedAtMs := operation.header.extensions.assertedAtMs
  }
  match foldPredicateDefinition replay.fold.catalog causal origin proposal with
  | .ok definition =>
    { replay with fold.catalog.definitions := replay.fold.catalog.definitions ++ [definition] }
  | .error reason =>
    { replay with fold.catalog.rejected := replay.fold.catalog.rejected ++
        [{ operation := operation.hash, author := operation.author, reason }] }

def assertRelation (causal : CausalIndex) (operation : Operation)
    (assertion : KnotRelationAssertionV1) : RelationReplay :=
  match judgeAssertion replay.fold.catalog replay.documents causal assertion with
  | .ok () =>
    { replay with
      assertions := replay.locate operation (.valid replay.fold.relations.length)
      fold.relations := replay.fold.relations ++ [assertion] }
  | .error (.unverified reason) =>
    { replay with
      assertions := replay.locate operation (.unverified replay.fold.unverified.length)
      fold.unverified := replay.fold.unverified ++ [{ assertion, reason }] }
  | .error (.rejected reason) => replay.reject operation reason

def retractRelation (causal : CausalIndex) (operation : Operation) (assertion : Bytes32) :
    RelationReplay :=
  match replay.assertions[assertion]? with
  | none => replay.reject operation "retraction names no valid or unverified relation assertion"
  | some state =>
    if state.author != operation.author then
      replay.reject operation "only the assertion's signed author may retract it"
    else if !causal.happensBefore assertion operation.hash then
      replay.reject operation "retraction does not causally observe its assertion"
    else
      let retraction : KnotRelationRetractionV1 := {
        operation := operation.hash
        author := operation.author
        withdrawnAtMs := operation.header.extensions.assertedAtMs
      }
      match state.location with
      | .valid index =>
        { replay with fold.relations := replay.fold.relations.modify index fun relation =>
            { relation with retractions := relation.retractions ++ [retraction] } }
      | .unverified index =>
        { replay with fold.unverified := replay.fold.unverified.modify index fun relation =>
            { relation with assertion.retractions :=
                relation.assertion.retractions ++ [retraction] } }

def step (events : Operation → Option KnotSyncEvent) (causal : CausalIndex) (scope : Bytes32)
    (operation : Operation) : RelationReplay :=
  match events operation with
  | none => replay
  | some (.put document) =>
    { replay with documents := replay.documents.insert operation.hash document }
  | some (.resolve _ _ (some document)) =>
    { replay with documents := replay.documents.insert operation.hash document }
  | some (.captureFileRevision revision) =>
    match revision.validate with
    | .ok () =>
      { replay with documents :=
          replay.documents.insert operation.hash (fileRevisionAsVaultDocument revision) }
    | .error _ => replay
  | some (.definePredicate slug label description subpropertyOf lowersTo supersedes replacedBy) =>
    replay.definePredicate causal scope operation
      { slug, label, description, subpropertyOf, lowersTo, supersedes, replacedBy }
  | some (.assertRelation predicate subject object evidence qualification) =>
    replay.assertRelation causal operation {
      id := operation.hash
      author := operation.author
      operation := operation.hash
      scope
      predicate
      subject
      object
      evidence
      qualification
      retractions := []
      assertedAtMs := operation.header.extensions.assertedAtMs
    }
  | some (.retractRelation assertion) => replay.retractRelation causal operation assertion
  | some (.delete _) => replay
  | some (.resolve _ _ none) => replay
  | some (.retainCompositionV1 _) => replay
  | some (.organizeCompositionV1 _ _ _ _) => replay

end RelationReplay

def replayRelations (order : List Operation) (events : Operation → Option KnotSyncEvent)
    (causal : CausalIndex) (scope : Bytes32) : RelationReplay :=
  order.foldl (fun replay operation => replay.step events causal scope operation) {}

def foldRelations (order : List Operation) (events : Operation → Option KnotSyncEvent)
    (causal : CausalIndex) (scope : Bytes32) : RelationFold :=
  (replayRelations order events causal scope).fold

end KnotEditor
