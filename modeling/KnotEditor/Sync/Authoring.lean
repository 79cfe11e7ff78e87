import KnotEditor.Sync.Projection

/-! Authoring: the local checks of an event, its sealing and signing, and its admission. -/

namespace KnotEditor

def compositionItem (host : CompositionHost) (json : String) :
    Except KnotSyncError (CollectionItem host.Scene host.Recipe) := do
  if Composition.maxStoreBytes < json.utf8ByteSize then
    .error (.payload "composition item exceeds byte limit")
  let item ← (host.parseItem json).mapError .payload
  item.validate.mapError fun error => .payload error.text
  return item

def compositionOrganization (host : CompositionHost) (json : String) :
    Except KnotSyncError CollectionOrganization := do
  if Composition.maxStoreBytes < json.utf8ByteSize then
    .error (.payload "organization exceeds byte limit")
  let organization ← (host.parseOrganization json).mapError .payload
  organization.validate.mapError fun error => .payload error.text
  return organization

def frontierObserves (causal : CausalIndex) (parents : List Bytes32) (operation : Bytes32) : Bool :=
  parents.any fun parent => parent == operation || causal.happensBefore operation parent

def capturedDocument : KnotSyncEvent → Option VaultDocument
  | .put document => some document
  | .resolve _ _ (some document) => some document
  | .captureFileRevision revision =>
    match revision.validate with
    | .ok () => some (fileRevisionAsVaultDocument revision)
    | .error _ => none
  | _ => none

def documentVersions (host : SyncHost) (cipher : KnotSyncCipher) (order : List Operation) :
    Except KnotSyncError (HashMap VaultDocument) :=
  order.foldlM (fun documents operation => do
    match capturedDocument (← decodeEvent host cipher operation) with
    | some document => return documents.insert operation.hash document
    | none => return documents) ∅

def localRelationFold (host : SyncHost) (cipher : KnotSyncCipher) (order : List Operation)
    (causal : CausalIndex) (scope : Bytes32) : Except KnotSyncError RelationFold := do
  let _ ← decodeClosed host cipher .strict order
  return foldRelations order (readableEvents host cipher) causal scope

def localPredicateCatalog (host : SyncHost) (cipher : KnotSyncCipher) (order : List Operation)
    (causal : CausalIndex) (scope : Bytes32) : Except KnotSyncError KnotPredicateCatalogV1 := do
  return (← localRelationFold host cipher order causal scope).catalog

def RelationCaptureError.message : RelationCaptureError → String
  | rejected reason => reason
  | unverified reason => reason

def validateLocalPredicate (catalog : KnotPredicateCatalogV1) (causal : CausalIndex)
    (parents : List Bytes32) (id : Bytes32) : Except KnotSyncError Unit :=
  match catalog.rootOf id with
  | none => .error (.invalidRelation "relation names an unavailable predicate definition")
  | some root =>
    if !frontierObserves causal parents id then
      .error (.invalidRelation "assertion does not observe its predicate definition")
    else if catalog.definitions.any fun definition =>
        definition.root == root && definition.replacedBy.isSome &&
          frontierObserves causal parents definition.id then
      .error (.invalidRelation "relation names a retired predicate definition")
    else .ok ()

def validateLocalEndpoint (documents : HashMap VaultDocument) (causal : CausalIndex)
    (parents : List Bytes32) (role : String) (endpoint : KnotRelationEndpointV1) :
    Except KnotSyncError Unit :=
  match documents[endpoint.documentHead]? with
  | none => .error (.invalidRelation
      s!"relation {role} document head is unavailable for capture verification")
  | some document =>
    if document.id != endpoint.documentId then
      .error (.invalidRelation s!"relation {role} document id does not match its captured head")
    else if !frontierObserves causal parents endpoint.documentHead then
      .error (.invalidRelation
        s!"relation {role} assertion does not observe its document head")
    else (validateEndpointCapture endpoint document role).mapError fun error =>
      .invalidRelation error.message

def retractionTarget (fold : RelationFold) (assertion : Bytes32) : Option (Bytes32 × Bytes32) :=
  ((fold.relations.map fun relation => (relation.id, relation.author)) ++
    fold.unverified.map fun relation => (relation.assertion.id, relation.assertion.author)).find?
      fun target => target.1 == assertion

def validateLocalSupersession (catalog : KnotPredicateCatalogV1) (causal : CausalIndex)
    (parents : List Bytes32) (author : Bytes32) (slug : String) (previous : Bytes32) :
    Except KnotSyncError Unit :=
  match catalog.definition previous with
  | none => .error (.invalidPredicate
      "definition supersedes an unavailable predicate definition")
  | some previous =>
    if previous.author != author then
      .error (.invalidPredicate
        "only the minting author may supersede a predicate definition")
    else if !frontierObserves causal parents previous.id then
      .error (.invalidPredicate "definition does not observe the definition it supersedes")
    else if previous.slug != slug then
      .error (.invalidPredicate "a superseding definition keeps the chain's slug")
    else .ok ()

def samePredecessorItem (host : SyncHost) (predecessor : Operation) (originalAuthor : Bytes32)
    (itemId : String) : KnotSyncEvent → Except KnotSyncError Bool
  | .retainCompositionV1 itemJson =>
    if predecessor.author ≠ originalAuthor then .ok false
    else do
      let item ← compositionItem host.composition itemJson
      return item.id == itemId
  | .organizeCompositionV1 author id _ _ => .ok (author == originalAuthor && id == itemId)
  | _ => .ok false

def validateLocalOrganization (host : SyncHost) (order : List Operation) (cipher : KnotSyncCipher)
    (causal : CausalIndex) (parents : List Bytes32) (originalAuthor : Bytes32) (itemId : String)
    (previous : Bytes32) (organizationJson : String) : Except KnotSyncError Unit := do
  if itemId.isEmpty || 256 < itemId.utf8ByteSize then
    .error (.payload "invalid organization item identity")
  let _ ← compositionOrganization host.composition organizationJson
  if !frontierObserves causal parents previous then
    .error (.payload "organization revision is not in the causal past")
  let some predecessor := order.find? fun operation => operation.hash == previous
    | .error (.payload "organization predecessor is unavailable")
  let event ← decodeEvent host cipher predecessor
  if !(← samePredecessorItem host predecessor originalAuthor itemId event) then
    .error (.payload "organization predecessor belongs to another item")

def validateLocalAssertion (host : SyncHost) (order : List Operation) (cipher : KnotSyncCipher)
    (causal : CausalIndex) (parents : List Bytes32) (scope : Bytes32)
    (predicate : KnotPredicateRefV1) (subject object : KnotRelationEndpointV1) :
    Except KnotSyncError Unit := do
  (validateRelationPayload predicate subject object).mapError .invalidRelation
  if let .defined id := predicate then
    let catalog ← localPredicateCatalog host cipher order causal scope
    validateLocalPredicate catalog causal parents id
  let documents ← documentVersions host cipher order
  validateLocalEndpoint documents causal parents "subject" subject
  validateLocalEndpoint documents causal parents "object" object

def validateLocalRetraction (host : SyncHost) (author : Bytes32) (order : List Operation)
    (cipher : KnotSyncCipher) (causal : CausalIndex) (parents : List Bytes32) (scope : Bytes32)
    (assertion : Bytes32) : Except KnotSyncError Unit := do
  let fold ← localRelationFold host cipher order causal scope
  match retractionTarget fold assertion with
  | none => .error (.invalidRelation
      "retraction names no valid or unverified relation assertion")
  | some target =>
    if target.2 ≠ author then
      .error (.invalidRelation "only the assertion's signed author may retract it")
    else if !frontierObserves causal parents assertion then
      .error (.invalidRelation "retraction does not causally observe its assertion")
    else .ok ()

def validateLocalRelationEvent (host : SyncHost) (event : KnotSyncEvent) (author : Bytes32)
    (order : List Operation) (cipher : KnotSyncCipher) (causal : CausalIndex)
    (parents : List Bytes32) (scope : Bytes32) : Except KnotSyncError Unit :=
  match event with
  | .retainCompositionV1 itemJson => do
      let _ ← compositionItem host.composition itemJson
  | .organizeCompositionV1 originalAuthor itemId previous organizationJson =>
    validateLocalOrganization host order cipher causal parents originalAuthor itemId previous
      organizationJson
  | .captureFileRevision revision => revision.validate.mapError .invalidFileRevision
  | .assertRelation predicate subject object _ _ =>
    validateLocalAssertion host order cipher causal parents scope predicate subject object
  | .retractRelation assertion =>
    validateLocalRetraction host author order cipher causal parents scope assertion
  | .definePredicate slug label description subpropertyOf lowersTo supersedes _ => do
      (validatePredicateDefinitionPayload slug label description subpropertyOf lowersTo).mapError
        .invalidPredicate
      match supersedes with
      | none => .ok ()
      | some previous => do
          let catalog ← localPredicateCatalog host cipher order causal scope
          validateLocalSupersession catalog causal parents author slug previous
  | .put _ => .ok ()
  | .delete _ => .ok ()
  | .resolve _ _ _ => .ok ()

inductive KnotAssertedTime
  | now
  | at (milliseconds : UInt64)
  | none

def KnotAssertedTime.resolve (time : KnotAssertedTime) (clock : Option UInt64) : Option UInt64 :=
  match time with
  | .now => clock
  | .at milliseconds => some milliseconds
  | .none => Option.none

def logId : Nat := 0

def KnotSyncPolicy.admitOperation (policy : KnotSyncPolicy) (host : SyncHost) (operation : Operation) :
    Except String Unit := do
  let extensions := operation.header.extensions
  if extensions.spaceId ≠ policy.spaceId then
    .error "operation addresses a different Knot vault"
  if extensions.encryption ≠ policy.encryption then
    .error "operation uses a different Knot encryption profile"
  if !policy.writers.contains operation.author then
    .error "operation author is not admitted to this Knot vault"
  let some body := operation.body | .error "Knot sync operations require a sealed body"
  if policy.encryption = .commonsDataV1 then
    let _ ← (host.decodeEnvelope body).mapError fun error =>
      s!"Commons Knot body is not a data-envelope: {error}"
  host.validateCausalMetadata operation extensions.parents

namespace KnotSyncStore

variable (store : KnotSyncStore) (host : SyncHost)

def acceptUnderGate (operation : Operation) : Except KnotSyncError KnotSyncStore := do
  (store.policy.admitOperation host operation).mapError .process
  let records ← (host.storeOperation store.records operation logId).mapError .process
  return { store with records }

def authorUnderGate (signingSeed : Bytes32) (cipher : KnotSyncCipher) (event : KnotSyncEvent)
    (assertedAt : KnotAssertedTime) : Except KnotSyncError (Operation × KnotSyncStore) := do
  store.requireCipher cipher
  let author := host.verifyingKey signingSeed
  let parents ← (host.observedFrontier store.entries).mapError .causal
  let (order, _) ← store.closedOperations host
  validateLocalRelationEvent host event author order cipher (store.causal host) parents
    store.policy.spaceId
  let (seqNum, backlink) ← (host.authorHead store.entries author logId).mapError .causal
  let plaintext ← (host.eventToJson event).mapError .payload
  let ciphertext ← sealEvent host cipher (operationAad store.policy.spaceId author seqNum) plaintext
  let header := host.buildHeader signingSeed ciphertext seqNum backlink {
    spaceId := store.policy.spaceId
    encryption := store.policy.encryption
    parents
    assertedAtMs := assertedAt.resolve host.clock
  }
  let operation : Operation := {
    hash := host.headerHash header
    header
    body := some ciphertext
  }
  let accepted ← store.acceptUnderGate host operation
  return (operation, accepted)

def authorWithCipherAt (signingSeed : Bytes32) (cipher : KnotSyncCipher) (event : KnotSyncEvent)
    (assertedAt : KnotAssertedTime) : Except KnotSyncError (Operation × KnotSyncStore) :=
  store.authorUnderGate host signingSeed cipher event assertedAt

def resolveConflictWithCipher (signingSeed : Bytes32) (cipher : KnotSyncCipher)
    (conflict : KnotDocumentConflict) (document : Option VaultDocument) :
    Except KnotSyncError (Operation × KnotSyncStore) := do
  if document.any fun document => document.id != conflict.id then
    .error (.invalidResolution "chosen document id does not match the conflict")
  let supersedes := ((conflict.versions.map KnotDocumentVersion.operation).insertionSort
    (· ≤ ·)).dedup
  store.authorWithCipherAt host signingSeed cipher
    (.resolve conflict.id supersedes document) .now

end KnotSyncStore

end KnotEditor
