import KnotEditor.Sync.Diagnostics

/-! Racing heads. An endpoint is looked up among the heads folded so far before anyone asks whether
its assertion observed it, so a head concurrent with the assertion decides its bucket by where the
order happens to place it. -/

namespace KnotEditor

open LinearExtensions KeyedCollections

section

variable (events : Operation → Option KnotSyncEvent) (causal : CausalIndex) (scope : Bytes32)
variable (order : List Operation)

/-- A document head captured by an operation that neither precedes nor follows the assertion. -/
def RacingHead (operation : Operation) (head : Bytes32) : Prop :=
  ∃ capture ∈ order, capture.hash = head ∧ (captured events capture).isSome = true ∧
    causal.happensBefore head operation.hash = false ∧
    causal.happensBefore operation.hash head = false

/-- An assertion whose verdict waits on a racing head: its subject's, or its object's once its
subject has passed. -/
def Races (operation : Operation) (assertion : KnotRelationAssertionV1) : Prop :=
  validateRelationPayload assertion.predicate assertion.subject assertion.object = .ok () ∧
  validateAssertedPredicate (historyCatalog events causal scope order) causal
    assertion.predicate operation.hash = .ok () ∧
  (RacingHead events causal order operation assertion.subject.documentHead ∨
    validateCapturedEndpoint operation.hash (collect Operation.hash (captured events) order) causal
      "subject" assertion.subject = .ok () ∧
    RacingHead events causal order operation assertion.object.documentHead)

end

section

variable {events : Operation → Option KnotSyncEvent} {causal : CausalIndex} {scope : Bytes32}
variable {order left right front back : List Operation} {operation : Operation}
variable {assertion : KnotRelationAssertionV1}

theorem validateCapturedEndpoint_congr {one two : HashMap VaultDocument}
    {endpoint : KnotRelationEndpointV1} (hash : Bytes32) (role : String)
    (same : one[endpoint.documentHead]? = two[endpoint.documentHead]?) :
    validateCapturedEndpoint hash one causal role endpoint =
      validateCapturedEndpoint hash two causal role endpoint := by
  simp only [validateCapturedEndpoint, same]

theorem AgreesBefore.doubt_eq {one two : RelationReplay}
    (agrees : AgreesBefore causal assertion.operation one two)
    (steady : validateRelationPayload assertion.predicate assertion.subject assertion.object =
        .ok () →
      validateAssertedPredicate one.fold.catalog causal assertion.predicate
        assertion.operation = .ok () →
      one.documents[assertion.subject.documentHead]? =
          two.documents[assertion.subject.documentHead]? ∧
        (validateCapturedEndpoint assertion.operation one.documents causal "subject"
          assertion.subject = .ok () →
          one.documents[assertion.object.documentHead]? =
            two.documents[assertion.object.documentHead]?)) :
    one.doubt causal assertion = two.doubt causal assertion := by
  have predicate := agrees.predicate_iff assertion.predicate
  simp only [RelationReplay.doubt, judgeAssertion, validateRelationCapture]
  cases payload : validateRelationPayload assertion.predicate assertion.subject
      assertion.object with
  | error reason => rfl
  | ok _ =>
    cases first : validateAssertedPredicate one.fold.catalog causal assertion.predicate
        assertion.operation with
    | error reason =>
      cases second : validateAssertedPredicate two.fold.catalog causal assertion.predicate
          assertion.operation with
      | error _ => rfl
      | ok _ =>
        rw [predicate.mpr second] at first
        cases first
    | ok _ =>
      obtain ⟨subject, object⟩ := steady payload first
      rw [predicate.mp first, validateCapturedEndpoint_congr _ "subject" subject]
      rw [validateCapturedEndpoint_congr _ "subject" subject] at object
      cases passes : validateCapturedEndpoint assertion.operation two.documents causal
          "subject" assertion.subject with
      | error refusal => rfl
      | ok _ => rw [validateCapturedEndpoint_congr _ "object" (object passes)]

theorem RacingHead.of_perm {head : Bytes32} (races : RacingHead events causal order operation head)
    (same : order.Perm left) : RacingHead events causal left operation head := by
  obtain ⟨capture, member, rest⟩ := races
  exact ⟨capture, same.mem_iff.mp member, rest⟩

theorem unobserved_head_missing (ordered : CausalOrder causal (front ++ operation :: back))
    {head : Bytes32} (unobserved : causal.happensBefore head operation.hash = false)
    (calm : ¬ RacingHead events causal (front ++ operation :: back) operation head) :
    (collect Operation.hash (captured events) front)[head]? = none := by
  rw [Option.eq_none_iff_forall_not_mem]
  intro document found
  rw [Option.mem_def, getElem?_collect ordered.frontOrder.distinct] at found
  obtain ⟨capture, member, rfl, captures⟩ := found
  refine calm ⟨capture, by simp [member], rfl, by simp [captures], unobserved, ?_⟩
  by_contra later
  rw [Bool.not_eq_false] at later
  have found : capture ∈ front ++ operation :: back := by simp [member]
  have behind := ordered.extension.mem_back found later
  exact ordered.extension.notMem_front_of_mem_back behind member

theorem historyCatalog_predicate_iff (predicate : KnotPredicateRefV1) (hash : Bytes32) :
    validateAssertedPredicate (historyCatalog events causal scope order) causal predicate hash =
        .ok () ↔
      validateAssertedPredicate (replayRelations order events causal scope).fold.catalog causal
        predicate hash = .ok () := by
  have same := historyCatalog_definitions events causal scope order
  simp only [validateAssertedPredicate_ok_iff, KnotPredicateCatalogV1.definition, same]
  rfl

variable (events scope) in
theorem agreesBefore_history (ordered : CausalOrder causal (front ++ operation :: back))
    (reference : CausalOrder causal order) (same : (front ++ operation :: back).Perm order)
    (chained : SingleWriter causal order) :
    AgreesBefore causal operation.hash (replayRelations front events causal scope)
      (replayRelations order events causal scope) :=
  (agreesBefore_front ordered).trans
    (agreesBefore_of_perm ordered reference same (chained.perm same.symm) operation.hash)

theorem doubt_eq_of_calm {otherFront otherBack : List Operation}
    (reference : CausalOrder causal order) (chained : SingleWriter causal order)
    (one : CausalOrder causal (front ++ operation :: back))
    (two : CausalOrder causal (otherFront ++ operation :: otherBack))
    (onePerm : (front ++ operation :: back).Perm order)
    (twoPerm : (otherFront ++ operation :: otherBack).Perm order)
    (asserts : asserted events scope operation = some assertion)
    (calm : ¬ Races events causal scope order operation assertion) :
    (replayRelations front events causal scope).doubt causal assertion =
      (replayRelations otherFront events causal scope).doubt causal assertion := by
  have signed := asserted_operation asserts
  have oneSees := agreesBefore_history events scope one reference onePerm chained
  have twoSees := agreesBefore_history events scope two reference twoPerm chained
  have agrees := oneSees.trans twoSees.symm
  have lookup (head : Bytes32) (still : ¬ RacingHead events causal order operation head) :
      (replayRelations front events causal scope).documents[head]? =
        (replayRelations otherFront events causal scope).documents[head]? := by
    cases observed : causal.happensBefore head operation.hash with
    | true => exact agrees.documents head observed
    | false =>
      rw [replayRelations_documents, replayRelations_documents,
        unobserved_head_missing one observed fun races => still (races.of_perm onePerm),
        unobserved_head_missing two observed fun races => still (races.of_perm twoPerm)]
  rw [← signed] at oneSees agrees
  refine agrees.doubt_eq fun payload predicate => ?_
  have whole := (historyCatalog_predicate_iff assertion.predicate assertion.operation).mpr
    ((oneSees.predicate_iff _).mp predicate)
  refine ⟨lookup _ fun subject => calm ⟨payload, signed ▸ whole, .inl subject⟩, fun passes => ?_⟩
  refine lookup _ fun object => calm ⟨payload, signed ▸ whole, .inr ⟨?_, object⟩⟩
  rw [← signed, ← replayRelations_documents events causal scope order]
  exact (oneSees.endpoint_iff _ _).mp passes

theorem mentions_of_calm {held : Bool} {hash : Bytes32} (reference : CausalOrder causal order)
    (chained : SingleWriter causal order) (one : CausalOrder causal left)
    (two : CausalOrder causal right) (onePerm : left.Perm order) (twoPerm : right.Perm order)
    (calm : ∀ operation ∈ order, ∀ assertion, asserted events scope operation = some assertion →
      ¬ Races events causal scope order operation assertion)
    (mentioned : ∃ entry ∈ (foldRelations left events causal scope).entries,
      entry.doubt.isSome = held ∧ entry.Mentions hash) :
    ∃ entry ∈ (foldRelations right events causal scope).entries,
      entry.doubt.isSome = held ∧ entry.Mentions hash := by
  rw [entries_mention_iff one] at mentioned
  rw [entries_mention_iff two]
  obtain ⟨front, operation, back, assertion, doubt, rfl, asserts, judged, kept, mentions⟩ :=
    mentioned
  have across := onePerm.trans twoPerm.symm
  obtain ⟨otherFront, otherBack, rfl⟩ :=
    List.append_of_mem (across.mem_iff.mp (by simp : operation ∈ front ++ operation :: back))
  have still := calm operation (onePerm.mem_iff.mp (by simp)) assertion asserts
  rw [doubt_eq_of_calm reference chained one two onePerm twoPerm asserts still] at judged
  refine ⟨otherFront, operation, otherBack, assertion, doubt, rfl, asserts, judged, kept, ?_⟩
  have attached := across.filterMap (withdrawalFrom events causal assertion)
  refine mentions.imp_right ?_
  rintro ⟨retraction, member, own⟩
  exact ⟨retraction, attached.mem_iff.mp member, own⟩

theorem sameBucket_of_calm (reference : CausalOrder causal order)
    (chained : SingleWriter causal order) (one : CausalOrder causal left)
    (two : CausalOrder causal right) (onePerm : left.Perm order) (twoPerm : right.Perm order)
    (calm : ∀ operation ∈ order, ∀ assertion, asserted events scope operation = some assertion →
      ¬ Races events causal scope order operation assertion)
    (found : operation ∈ order) (signs : (asserted events scope operation).isSome = true ∨
      (withdrawn events operation).isSome = true) :
    (foldRelations left events causal scope).SameBucket operation.hash
      (foldRelations right events causal scope) := by
  have alike (held : Bool) :
      (∃ entry ∈ (foldRelations left events causal scope).entries,
        entry.doubt.isSome = held ∧ entry.Mentions operation.hash) ↔
      ∃ entry ∈ (foldRelations right events causal scope).entries,
        entry.doubt.isSome = held ∧ entry.Mentions operation.hash :=
    ⟨mentions_of_calm reference chained one two onePerm twoPerm calm,
      mentions_of_calm reference chained two one twoPerm onePerm calm⟩
  have either (fold : RelationFold) :
      (∃ entry ∈ fold.entries, entry.Mentions operation.hash) ↔
        ∃ held, ∃ entry ∈ fold.entries,
          entry.doubt.isSome = held ∧ entry.Mentions operation.hash := by
    constructor
    · rintro ⟨entry, member, mentions⟩
      exact ⟨entry.doubt.isSome, entry, member, rfl, mentions⟩
    · rintro ⟨_, entry, member, _, mentions⟩
      exact ⟨entry, member, mentions⟩
  refine ⟨?_, ?_, ?_⟩
  · rw [RelationFold.valid_iff, RelationFold.valid_iff]
    exact alike false
  · rw [RelationFold.unverified_iff, RelationFold.unverified_iff]
    exact alike true
  · rw [(sorted_of_distinct events causal scope one.distinct).once operation
        (onePerm.mem_iff.mpr found) signs,
      (sorted_of_distinct events causal scope two.distinct).once operation
        (twoPerm.mem_iff.mpr found) signs, either, either]
    exact not_congr (exists_congr alike)

theorem judgeAssertion_of_subject {replay : RelationReplay} {refusal : RelationCaptureError}
    (payload : validateRelationPayload assertion.predicate assertion.subject assertion.object =
      .ok ())
    (predicate : validateAssertedPredicate replay.fold.catalog causal assertion.predicate
      assertion.operation = .ok ())
    (refused : validateCapturedEndpoint assertion.operation replay.documents causal "subject"
      assertion.subject = .error refusal) :
    replay.doubt causal assertion = doubtOf (.error refusal) := by
  simp only [RelationReplay.doubt, judgeAssertion, validateRelationCapture, payload, predicate,
    refused, Except.mapError, bind, Except.bind]

theorem judgeAssertion_of_object {replay : RelationReplay} {refusal : RelationCaptureError}
    (payload : validateRelationPayload assertion.predicate assertion.subject assertion.object =
      .ok ())
    (predicate : validateAssertedPredicate replay.fold.catalog causal assertion.predicate
      assertion.operation = .ok ())
    (passes : validateCapturedEndpoint assertion.operation replay.documents causal "subject"
      assertion.subject = .ok ())
    (refused : validateCapturedEndpoint assertion.operation replay.documents causal "object"
      assertion.object = .error refusal) :
    replay.doubt causal assertion = doubtOf (.error refusal) := by
  simp only [RelationReplay.doubt, judgeAssertion, validateRelationCapture, payload, predicate,
    passes, refused, Except.mapError, bind, Except.bind]

theorem validateCapturedEndpoint_unobserved (documents : HashMap VaultDocument)
    {endpoint : KnotRelationEndpointV1} {hash : Bytes32} (role : String)
    (unobserved : causal.happensBefore endpoint.documentHead hash = false) :
    ∃ refusal, validateCapturedEndpoint hash documents causal role endpoint = .error refusal ∧
      (documents[endpoint.documentHead]? = none →
        ∃ reason, doubtOf (.error refusal) = some (some reason)) ∧
      (documents[endpoint.documentHead]?.isSome = true → doubtOf (.error refusal) = none) := by
  rw [validateCapturedEndpoint]
  cases found : documents[endpoint.documentHead]? with
  | none => exact ⟨_, rfl, fun _ => ⟨_, rfl⟩, by intros; contradiction⟩
  | some document =>
    by_cases same : document.id = endpoint.documentId
    · refine ⟨.rejected s!"relation {role} assertion does not causally observe its document head",
        ?_, by intros; contradiction, fun _ => rfl⟩
      simp [same, unobserved]
    · refine ⟨.rejected s!"relation {role} document id does not match its captured head",
        ?_, by intros; contradiction, fun _ => rfl⟩
      simp [same]

theorem Races.head (reference : CausalOrder causal order) (chained : SingleWriter causal order)
    (asserts : asserted events scope operation = some assertion)
    (races : Races events causal scope order operation assertion) :
    ∃ head, RacingHead events causal order operation head ∧
      ∀ front back, CausalOrder causal (front ++ operation :: back) →
        (front ++ operation :: back).Perm order →
        ((collect Operation.hash (captured events) front)[head]? = none →
          ∃ reason, (replayRelations front events causal scope).doubt causal assertion =
            some (some reason)) ∧
        ((collect Operation.hash (captured events) front)[head]?.isSome = true →
          (replayRelations front events causal scope).doubt causal assertion = none) := by
  have signed := asserted_operation asserts
  have predicatePasses {front back : List Operation}
      (ordered : CausalOrder causal (front ++ operation :: back))
      (same : (front ++ operation :: back).Perm order) :=
    ((agreesBefore_history events scope ordered reference same chained).predicate_iff
      assertion.predicate).mpr ((historyCatalog_predicate_iff _ _).mp races.2.1)
  obtain ⟨payload, _, subject | ⟨passes, object⟩⟩ := races
  · refine ⟨_, subject, fun front back ordered same => ?_⟩
    obtain ⟨_, _, _, _, unobserved, _⟩ := subject
    have predicate := predicatePasses ordered same
    rw [← signed] at predicate unobserved
    obtain ⟨refusal, refused, verdict⟩ := validateCapturedEndpoint_unobserved
      (replayRelations front events causal scope).documents "subject" unobserved
    rw [judgeAssertion_of_subject payload predicate refused, ← replayRelations_documents events
      causal scope]
    exact verdict
  · refine ⟨_, object, fun front back ordered same => ?_⟩
    obtain ⟨_, _, _, _, unobserved, _⟩ := object
    have predicate := predicatePasses ordered same
    have sees := agreesBefore_history events scope ordered reference same chained
    rw [← replayRelations_documents events causal scope order, ← sees.endpoint_iff] at passes
    rw [← signed] at predicate unobserved passes
    obtain ⟨refusal, refused, verdict⟩ := validateCapturedEndpoint_unobserved
      (replayRelations front events causal scope).documents "object" unobserved
    rw [judgeAssertion_of_object payload predicate passes refused, ← replayRelations_documents
      events causal scope]
    exact verdict

theorem Races.splits (reference : CausalOrder causal order) (chained : SingleWriter causal order)
    (transitive : ∀ first second third, causal.Precedes first second →
      causal.Precedes second third → causal.Precedes first third)
    (found : operation ∈ order) (asserts : asserted events scope operation = some assertion)
    (races : Races events causal scope order operation assertion) :
    ∃ left right, left.Perm order ∧ right.Perm order ∧ CausalOrder causal left ∧
      CausalOrder causal right ∧
      (foldRelations left events causal scope).Unverified operation.hash ∧
      ¬ (foldRelations right events causal scope).Unverified operation.hash := by
  obtain ⟨head, ⟨capture, captureFound, rfl, captures, notBefore, notAfter⟩, verdict⟩ :=
    races.head reference chained asserts
  have distinct : capture ≠ operation := by
    rintro rfl
    obtain ⟨event, read, made⟩ := Option.bind_eq_some_iff.mp asserts
    rw [captured, read] at captures
    cases event <;> cases made
    cases captures
  have afterwards : ¬ causal.Precedes operation capture := by
    simp [CausalIndex.Precedes, notAfter]
  have beforehand : ¬ causal.Precedes capture operation := by
    simp [CausalIndex.Precedes, notBefore]
  obtain ⟨front, back, late, lateExtension, waiting⟩ := reference.extension.exists_before
    transitive found captureFound distinct.symm beforehand
  obtain ⟨early, rest, earlyPerm, earlyExtension, present⟩ := reference.extension.exists_before
    transitive captureFound found distinct afterwards
  obtain ⟨ahead, behind, rfl⟩ := List.append_of_mem waiting
  have lateOrder := reference.of_perm late lateExtension
  have earlyOrder := reference.of_perm earlyPerm earlyExtension
  have listed : (ahead ++ operation :: behind) ++ capture :: back =
      ahead ++ operation :: (behind ++ capture :: back) := by simp
  rw [listed] at late lateOrder
  refine ⟨_, _, late.symm, earlyPerm.symm, lateOrder, earlyOrder, ?_, ?_⟩
  · rw [unverified_assertion_iff lateOrder asserts]
    refine (verdict ahead _ lateOrder late.symm).1 ?_
    rw [Option.eq_none_iff_forall_not_mem]
    intro document held
    rw [Option.mem_def, getElem?_collect lateOrder.frontOrder.distinct] at held
    obtain ⟨writer, member, own, _⟩ := held
    have same := lateOrder.identify writer (by simp [member]) capture (by simp) own
    subst same
    exact lateOrder.extension.notMem_front_of_mem_back (by simp) member
  · rw [unverified_assertion_iff earlyOrder asserts]
    have refused := (verdict early rest earlyOrder earlyPerm.symm).2 <| by
      obtain ⟨document, made⟩ := Option.isSome_iff_exists.mp captures
      rw [(getElem?_collect earlyOrder.frontOrder.distinct _ document).mpr
        ⟨capture, present, rfl, made⟩]
      rfl
    rw [refused]
    rintro ⟨reason, open_⟩
    cases open_

end

/-- Every order of a history sorts every assertion and retraction alike exactly when no assertion
waits on a racing head. -/
theorem sorts_alike_iff_calm (events : Operation → Option KnotSyncEvent) (causal : CausalIndex)
    (scope : Bytes32) (order : List Operation) (reference : CausalOrder causal order)
    (chained : SingleWriter causal order)
    (transitive : ∀ first second third, causal.Precedes first second →
      causal.Precedes second third → causal.Precedes first third) :
    (∀ left right, left.Perm order → right.Perm order → CausalOrder causal left →
      CausalOrder causal right → ∀ operation ∈ order,
        ((asserted events scope operation).isSome = true ∨
          (withdrawn events operation).isSome = true) →
        (foldRelations left events causal scope).SameBucket operation.hash
          (foldRelations right events causal scope)) ↔
      ∀ operation ∈ order, ∀ assertion, asserted events scope operation = some assertion →
        ¬ Races events causal scope order operation assertion := by
  constructor
  · intro alike operation found assertion asserts races
    obtain ⟨left, right, leftPerm, rightPerm, leftOrder, rightOrder, unverified, settled⟩ :=
      races.splits reference chained transitive found asserts
    have same := alike left right leftPerm rightPerm leftOrder rightOrder operation found
      (.inl (by simp [asserts]))
    exact settled (same.2.1.mp unverified)
  · intro calm left right leftPerm rightPerm leftOrder rightOrder operation found signs
    exact sameBucket_of_calm reference chained leftOrder rightOrder leftPerm rightPerm calm found
      signs

def racedHistory : List Operation := [.sample 1 10, .sample 2 20]

def racedEvents (operation : Operation) : Option KnotSyncEvent :=
  if operation.hash = .filled 2 then
    some (.assertRelation (.core .cites) (.sample "note" 1) (.sample "note" 1) none none)
  else some (.put (.sample "note"))

theorem raced_citation_changes_bucket :
    CausalOrder (.ofPairs []) racedHistory ∧ CausalOrder (.ofPairs []) racedHistory.reverse ∧
    (asserted racedEvents (.filled 0) (.sample 2 20)).isSome = true ∧
    ¬ (foldRelations racedHistory racedEvents (.ofPairs []) (.filled 0)).SameBucket (.filled 2)
      (foldRelations racedHistory.reverse racedEvents (.ofPairs []) (.filled 0)) := by
  refine ⟨⟨by decide, ⟨by decide, by decide, by decide⟩⟩,
    ⟨by decide, ⟨by decide, by decide, by decide⟩⟩, by decide, ?_⟩
  rintro ⟨_, _, rejected⟩
  have refused : (foldRelations racedHistory racedEvents (.ofPairs [])
      (.filled 0)).Rejected (.filled 2) := by unfold RelationFold.Rejected; decide
  have open' : ¬ (foldRelations racedHistory.reverse racedEvents (.ofPairs [])
      (.filled 0)).Rejected (.filled 2) := by unfold RelationFold.Rejected; decide
  exact open' (rejected.mp refused)

theorem sorts_alike_iff_calm_racedHistory :
    ¬ ∀ left right, left.Perm racedHistory → right.Perm racedHistory →
      CausalOrder (.ofPairs []) left → CausalOrder (.ofPairs []) right →
      ∀ operation ∈ racedHistory,
        ((asserted racedEvents (.filled 0) operation).isSome = true ∨
          (withdrawn racedEvents operation).isSome = true) →
        (foldRelations left racedEvents (.ofPairs []) (.filled 0)).SameBucket operation.hash
          (foldRelations right racedEvents (.ofPairs []) (.filled 0)) := by
  intro alike
  have calm := (sorts_alike_iff_calm racedEvents (.ofPairs []) (.filled 0) racedHistory
    ⟨by decide, ⟨by decide, by decide, by decide⟩⟩ (by unfold SingleWriter; decide)
    (fun _ _ _ before => by cases before)).mp alike
  cases asserts : asserted racedEvents (.filled 0) (.sample 2 20) with
  | none => exact absurd asserts (by decide)
  | some assertion =>
    refine calm (.sample 2 20) (by decide) assertion asserts ?_
    cases asserts
    refine ⟨by decide, by decide, .inl ⟨.sample 1 10, by decide, rfl, by decide, ?_, ?_⟩⟩
    · decide
    · decide

end KnotEditor
