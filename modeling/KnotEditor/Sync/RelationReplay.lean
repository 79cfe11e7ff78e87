import KnotEditor.Sync.Authoring
import KnotEditor.Sync.PredicateReplay

/-! Relations over whole replays. The replay keeps each assertion under an index; seen from outside
it is a ledger of assertions, each with its doubt and its retractions. -/

namespace KnotEditor

open KeyedCollections

def assertionOf (scope : Bytes32) (operation : Operation) :
    KnotSyncEvent → Option KnotRelationAssertionV1
  | .assertRelation predicate subject object evidence qualification => some {
      id := operation.hash
      author := operation.author
      operation := operation.hash
      scope
      predicate
      subject
      object
      evidence
      qualification
      retractions := []
      assertedAtMs := operation.header.extensions.assertedAtMs }
  | _ => none

def withdrawalOf : KnotSyncEvent → Option Bytes32
  | .retractRelation assertion => some assertion
  | _ => none

def retractionBy (operation : Operation) : KnotRelationRetractionV1 where
  operation := operation.hash
  author := operation.author
  withdrawnAtMs := operation.header.extensions.assertedAtMs

section

variable (events : Operation → Option KnotSyncEvent) (causal : CausalIndex) (scope : Bytes32)

def asserted (operation : Operation) : Option KnotRelationAssertionV1 :=
  (events operation).bind (assertionOf scope operation)

def withdrawn (operation : Operation) : Option Bytes32 := (events operation).bind withdrawalOf

def captured (operation : Operation) : Option VaultDocument :=
  (events operation).bind capturedDocument

variable (replay : RelationReplay) (operation : Operation)

theorem step_documents :
    (replay.step events causal scope operation).documents =
      match captured events operation with
      | some document => replay.documents.insert operation.hash document
      | none => replay.documents := by
  rw [RelationReplay.step, captured]
  cases events operation with
  | none => rfl
  | some event =>
    cases event with
    | captureFileRevision revision =>
      simp only [capturedDocument, Option.bind_some]
      cases revision.validate <;> rfl
    | resolve id supersedes document => cases document <;> rfl
    | put document => rfl
    | delete id => rfl
    | assertRelation predicate subject object evidence qualification =>
      simp [capturedDocument]
    | retractRelation assertion => simp [capturedDocument]
    | definePredicate slug label description subpropertyOf lowersTo supersedes replacedBy =>
      simp [capturedDocument]
    | retainCompositionV1 itemJson => rfl
    | organizeCompositionV1 originalAuthor itemId previous organizationJson => rfl

theorem replayRelations_documents (order : List Operation) :
    (replayRelations order events causal scope).documents =
      collect Operation.hash (captured events) order := by
  induction order using List.reverseRecOn with
  | nil => rfl
  | append_singleton front operation ih =>
    rw [RelationReplay.replayRelations_append_singleton, step_documents, ih,
      collect_append_singleton]
    cases captured events operation <;> rfl

theorem step_of_asserted {assertion : KnotRelationAssertionV1}
    (asserts : asserted events scope operation = some assertion) :
    replay.step events causal scope operation =
      replay.assertRelation causal operation assertion := by
  obtain ⟨event, read, made⟩ := Option.bind_eq_some_iff.mp asserts
  cases event <;> cases made
  simp only [RelationReplay.step, read]

theorem step_of_withdrawn {target : Bytes32}
    (withdraws : withdrawn events operation = some target) :
    replay.step events causal scope operation =
      replay.retractRelation causal operation target := by
  obtain ⟨event, read, made⟩ := Option.bind_eq_some_iff.mp withdraws
  cases event <;> cases made
  simp only [RelationReplay.step, read]

theorem step_frame (noAssertion : asserted events scope operation = none)
    (noWithdrawal : withdrawn events operation = none) :
    (replay.step events causal scope operation).assertions = replay.assertions ∧
      (replay.step events causal scope operation).fold.relations = replay.fold.relations ∧
      (replay.step events causal scope operation).fold.unverified = replay.fold.unverified ∧
      (replay.step events causal scope operation).fold.rejected = replay.fold.rejected := by
  rw [asserted] at noAssertion
  rw [withdrawn] at noWithdrawal
  rw [RelationReplay.step]
  cases read : events operation with
  | none => simp
  | some event =>
    rw [read, Option.bind_some] at noAssertion noWithdrawal
    cases event with
    | assertRelation => cases noAssertion
    | retractRelation => cases noWithdrawal
    | captureFileRevision revision =>
      cases checked : revision.validate <;> simp [checked]
    | resolve id supersedes document => cases document <;> simp
    | definePredicate slug label description subpropertyOf lowersTo supersedes replacedBy => simp
    | put document => simp
    | delete id => simp
    | retainCompositionV1 itemJson => simp
    | organizeCompositionV1 originalAuthor itemId previous organizationJson => simp

theorem withdrawn_of_asserted {assertion : KnotRelationAssertionV1}
    (asserts : asserted events scope operation = some assertion) :
    withdrawn events operation = none := by
  obtain ⟨event, read, made⟩ := Option.bind_eq_some_iff.mp asserts
  cases event <;> cases made
  simp [withdrawn, read, withdrawalOf]

end

def KnotRelationAssertionV1.withdraw (assertion : KnotRelationAssertionV1) (target : Bytes32)
    (retraction : KnotRelationRetractionV1) : KnotRelationAssertionV1 :=
  if assertion.id = target then
    { assertion with retractions := assertion.retractions ++ [retraction] }
  else assertion

structure LedgerEntry where
  assertion : KnotRelationAssertionV1
  doubt : Option String
  deriving DecidableEq

def LedgerEntry.withdraw (entry : LedgerEntry) (target : Bytes32)
    (retraction : KnotRelationRetractionV1) : LedgerEntry :=
  { entry with assertion := entry.assertion.withdraw target retraction }

@[simp] theorem KnotRelationAssertionV1.withdraw_id (assertion : KnotRelationAssertionV1)
    (target : Bytes32) (retraction : KnotRelationRetractionV1) :
    (assertion.withdraw target retraction).id = assertion.id := by
  rw [KnotRelationAssertionV1.withdraw]
  split <;> rfl

@[simp] theorem KnotRelationAssertionV1.withdraw_author (assertion : KnotRelationAssertionV1)
    (target : Bytes32) (retraction : KnotRelationRetractionV1) :
    (assertion.withdraw target retraction).author = assertion.author := by
  rw [KnotRelationAssertionV1.withdraw]
  split <;> rfl

def RelationFold.entries (fold : RelationFold) : List LedgerEntry :=
  (fold.relations.map fun relation => { assertion := relation, doubt := none }) ++
    fold.unverified.map fun held => { assertion := held.assertion, doubt := some held.reason }

structure Indexed (replay : RelationReplay) : Prop where
  valid : ∀ (hash author : Bytes32) (index : Nat),
    replay.assertions[hash]? = some { author, location := .valid index } →
      ∃ relation, replay.fold.relations[index]? = some relation ∧ relation.id = hash ∧
        relation.author = author
  unverified : ∀ (hash author : Bytes32) (index : Nat),
    replay.assertions[hash]? = some { author, location := .unverified index } →
      ∃ held, replay.fold.unverified[index]? = some held ∧ held.assertion.id = hash ∧
        held.assertion.author = author
  known : ∀ entry ∈ replay.fold.entries, ∃ state,
    replay.assertions[entry.assertion.id]? = some state ∧ state.author = entry.assertion.author
  distinct : (replay.fold.entries.map fun entry => entry.assertion.id).Nodup

theorem modify_eq_map {α : Type} {values : List α} {identity : α → Bytes32} {index : Nat}
    {value : α} (change : α → α) (distinct : (values.map identity).Nodup)
    (read : values[index]? = some value) :
    values.modify index change =
      values.map fun candidate =>
        if identity candidate = identity value then change candidate else candidate := by
  refine List.ext_getElem? fun position => ?_
  rw [List.getElem?_modify, List.getElem?_map]
  cases held : values[position]? with
  | none => simp
  | some candidate =>
    simp only [Option.map_eq_map, Option.map_some]
    by_cases same : index = position
    · subst same
      rw [read] at held
      cases held
      simp
    · have different : identity candidate ≠ identity value := by
        intro clash
        obtain ⟨positionBound, _⟩ := List.getElem?_eq_some_iff.mp held
        have mapped : (values.map identity)[position]? = (values.map identity)[index]? := by
          simp [held, read, clash]
        exact same ((List.getElem?_inj (by simpa using positionBound) distinct).mp mapped).symm
      simp [same, different]

def Withdrawable (replay : RelationReplay) (causal : CausalIndex) (operation : Operation)
    (target : Bytes32) : Prop :=
  ∃ state, replay.assertions[target]? = some state ∧ state.author = operation.author ∧
    causal.happensBefore target operation.hash = true

namespace Indexed

variable {replay : RelationReplay} {causal : CausalIndex} {operation : Operation}
variable {assertion : KnotRelationAssertionV1} {target : Bytes32} {state : RelationState}

theorem empty : Indexed {} where
  valid := by simp
  unverified := by simp
  known := by simp [RelationFold.entries]
  distinct := by simp [RelationFold.entries]

theorem frame (indexed : Indexed replay) {other : RelationReplay}
    (assertions : other.assertions = replay.assertions)
    (relations : other.fold.relations = replay.fold.relations)
    (unverified : other.fold.unverified = replay.fold.unverified) : Indexed other := by
  have entries : other.fold.entries = replay.fold.entries := by
    rw [RelationFold.entries, relations, unverified, RelationFold.entries]
  constructor
  · rw [assertions, relations]
    exact indexed.valid
  · rw [assertions, unverified]
    exact indexed.unverified
  · rw [assertions, entries]
    exact indexed.known
  · rw [entries]
    exact indexed.distinct

theorem reject (indexed : Indexed replay) (reason : String) :
    Indexed (replay.reject operation reason) :=
  indexed.frame rfl rfl rfl

theorem relations_distinct (indexed : Indexed replay) :
    (replay.fold.relations.map KnotRelationAssertionV1.id).Nodup := by
  have distinct := indexed.distinct
  rw [RelationFold.entries, List.map_append, List.map_map, List.nodup_append] at distinct
  exact distinct.1

theorem unverified_distinct (indexed : Indexed replay) :
    (replay.fold.unverified.map fun held => held.assertion.id).Nodup := by
  have distinct := indexed.distinct
  rw [RelationFold.entries, List.map_append, List.map_map, List.map_map,
    List.nodup_append] at distinct
  exact distinct.2.1

theorem apart (indexed : Indexed replay) {relation : KnotRelationAssertionV1}
    {held : KnotUnverifiedRelationV1} (valid : relation ∈ replay.fold.relations)
    (unverified : held ∈ replay.fold.unverified) : relation.id ≠ held.assertion.id := by
  have distinct := indexed.distinct
  rw [RelationFold.entries, List.map_append, List.map_map, List.map_map,
    List.nodup_append] at distinct
  exact distinct.2.2 _ (List.mem_map_of_mem valid) _ (List.mem_map_of_mem unverified)

theorem located (indexed : Indexed replay) (read : replay.assertions[target]? = some state) :
    ∃ entry ∈ replay.fold.entries, entry.assertion.id = target := by
  obtain ⟨author, location⟩ := state
  cases location with
  | valid index =>
    obtain ⟨relation, found, own, _⟩ := indexed.valid target author index read
    refine ⟨⟨relation, none⟩, ?_, own⟩
    simp [RelationFold.entries, List.mem_of_getElem? found]
  | unverified index =>
    obtain ⟨held, found, own, _⟩ := indexed.unverified target author index read
    refine ⟨⟨held.assertion, some held.reason⟩, ?_, own⟩
    rw [RelationFold.entries, List.mem_append, List.mem_map, List.mem_map]
    exact .inr ⟨held, List.mem_of_getElem? found, rfl⟩

theorem retractRelation_eq (indexed : Indexed replay)
    (read : replay.assertions[target]? = some state) (author : state.author = operation.author)
    (observed : causal.happensBefore target operation.hash = true) :
    replay.retractRelation causal operation target =
      { replay with
        fold.relations := replay.fold.relations.map fun relation =>
          relation.withdraw target (retractionBy operation)
        fold.unverified := replay.fold.unverified.map fun held =>
          { held with assertion := held.assertion.withdraw target (retractionBy operation) } } := by
  simp only [RelationReplay.retractRelation, read, author, observed, bne_self_eq_false,
    Bool.not_true, Bool.false_eq_true,
    if_false]
  obtain ⟨stateAuthor, location⟩ := state
  cases location with
  | valid index =>
    obtain ⟨relation, found, relationId, _⟩ := indexed.valid target stateAuthor index read
    have changed := modify_eq_map (fun relation : KnotRelationAssertionV1 =>
      { relation with retractions := relation.retractions ++ [retractionBy operation] })
      indexed.relations_distinct found
    have kept : (replay.fold.unverified.map fun held =>
        { held with assertion := held.assertion.withdraw target (retractionBy operation) }) =
        replay.fold.unverified := by
      refine (List.map_congr_left fun held member => ?_).trans (List.map_id _)
      have other := indexed.apart (List.mem_of_getElem? found) member
      rw [relationId] at other
      simp [KnotRelationAssertionV1.withdraw, other.symm]
    rw [relationId] at changed
    rw [kept]
    simp only [KnotRelationAssertionV1.withdraw]
    exact congrArg (fun relations => { replay with fold.relations := relations }) changed
  | unverified index =>
    obtain ⟨held, found, heldId, _⟩ := indexed.unverified target stateAuthor index read
    have changed := modify_eq_map (fun held : KnotUnverifiedRelationV1 =>
      { held with assertion.retractions :=
          held.assertion.retractions ++ [retractionBy operation] })
      indexed.unverified_distinct found
    have kept : (replay.fold.relations.map fun relation =>
        relation.withdraw target (retractionBy operation)) = replay.fold.relations := by
      refine (List.map_congr_left fun relation member => ?_).trans (List.map_id _)
      have other := indexed.apart member (List.mem_of_getElem? found)
      rw [heldId] at other
      simp [KnotRelationAssertionV1.withdraw, other]
    have lifted : (replay.fold.unverified.map fun held =>
        { held with assertion := held.assertion.withdraw target (retractionBy operation) }) =
        replay.fold.unverified.map fun candidate =>
          if candidate.assertion.id = target then
            { candidate with assertion.retractions :=
                candidate.assertion.retractions ++ [retractionBy operation] }
          else candidate := by
      refine List.map_congr_left fun held member => ?_
      rw [KnotRelationAssertionV1.withdraw]
      split <;> rfl
    rw [heldId] at changed
    rw [kept, lifted]
    exact congrArg (fun unverified => { replay with fold.unverified := unverified }) changed

theorem retractRelation_entries (indexed : Indexed replay)
    (read : replay.assertions[target]? = some state) (author : state.author = operation.author)
    (observed : causal.happensBefore target operation.hash = true) :
    (replay.retractRelation causal operation target).fold.entries =
      replay.fold.entries.map fun entry => entry.withdraw target (retractionBy operation) := by
  rw [indexed.retractRelation_eq read author observed]
  simp [RelationFold.entries, LedgerEntry.withdraw, Function.comp_def]

theorem retractRelation_rejected (indexed : Indexed replay)
    (read : replay.assertions[target]? = some state) (author : state.author = operation.author)
    (observed : causal.happensBefore target operation.hash = true) :
    (replay.retractRelation causal operation target).fold.rejected = replay.fold.rejected := by
  rw [indexed.retractRelation_eq read author observed]

theorem retractRelation_refused (refused : ¬ Withdrawable replay causal operation target) :
    ∃ reason, replay.retractRelation causal operation target = replay.reject operation reason := by
  rw [RelationReplay.retractRelation]
  cases read : replay.assertions[target]? with
  | none => exact ⟨_, rfl⟩
  | some state =>
    by_cases author : state.author = operation.author
    · cases observed : causal.happensBefore target operation.hash with
      | true => exact absurd ⟨state, read, author, observed⟩ refused
      | false =>
        refine ⟨"retraction does not causally observe its assertion", ?_⟩
        simp [author]
    · refine ⟨"only the assertion's signed author may retract it", ?_⟩
      simp [author]

theorem retractRelation (indexed : Indexed replay) :
    Indexed (replay.retractRelation causal operation target) := by
  by_cases passes : Withdrawable replay causal operation target
  · obtain ⟨state, read, author, observed⟩ := passes
    have entries := indexed.retractRelation_entries read author observed
    have ids : (replay.fold.entries.map fun entry => entry.withdraw target
        (retractionBy operation)).map (fun entry => entry.assertion.id) =
        replay.fold.entries.map fun entry => entry.assertion.id := by
      simp [LedgerEntry.withdraw, Function.comp_def]
    rw [← entries] at ids
    constructor
    · intro hash owner index located
      rw [RelationReplay.retractRelation_assertions] at located
      obtain ⟨relation, found, relationId, relationAuthor⟩ :=
        indexed.valid hash owner index located
      rw [indexed.retractRelation_eq read author observed]
      exact ⟨relation.withdraw target (retractionBy operation), by simp [found],
        by simp [relationId], by simp [relationAuthor]⟩
    · intro hash owner index located
      rw [RelationReplay.retractRelation_assertions] at located
      obtain ⟨held, found, heldId, heldAuthor⟩ := indexed.unverified hash owner index located
      rw [indexed.retractRelation_eq read author observed]
      exact ⟨{ held with assertion := held.assertion.withdraw target (retractionBy operation) },
        by simp [found], by simp [heldId], by simp [heldAuthor]⟩
    · intro entry member
      rw [entries, List.mem_map] at member
      obtain ⟨earlier, earlierMember, rfl⟩ := member
      obtain ⟨known, located, knownAuthor⟩ := indexed.known earlier earlierMember
      exact ⟨known, by simpa [LedgerEntry.withdraw] using located,
        by simpa [LedgerEntry.withdraw] using knownAuthor⟩
    · rw [ids]
      exact indexed.distinct
  · obtain ⟨reason, refused⟩ := retractRelation_refused passes
    rw [refused]
    exact indexed.reject reason

end Indexed

def doubtOf : Except RelationCaptureError Unit → Option (Option String)
  | .ok () => some none
  | .error (.unverified reason) => some (some reason)
  | .error (.rejected _) => none

section

variable {replay : RelationReplay} {causal : CausalIndex} (operation : Operation)
variable {assertion : KnotRelationAssertionV1}

def RelationReplay.doubt (replay : RelationReplay) (causal : CausalIndex)
    (assertion : KnotRelationAssertionV1) : Option (Option String) :=
  doubtOf (judgeAssertion replay.fold.catalog replay.documents causal assertion)

theorem assertRelation_cases :
    (replay.doubt causal assertion = some none ∧
      replay.assertRelation causal operation assertion =
        { replay with
          assertions := replay.locate operation (.valid replay.fold.relations.length)
          fold.relations := replay.fold.relations ++ [assertion] }) ∨
    (∃ reason, replay.doubt causal assertion = some (some reason) ∧
      replay.assertRelation causal operation assertion =
        { replay with
          assertions := replay.locate operation (.unverified replay.fold.unverified.length)
          fold.unverified := replay.fold.unverified ++ [{ assertion, reason }] }) ∨
    ∃ reason, replay.doubt causal assertion = none ∧
      replay.assertRelation causal operation assertion = replay.reject operation reason := by
  rw [RelationReplay.doubt, RelationReplay.assertRelation]
  cases judgeAssertion replay.fold.catalog replay.documents causal assertion with
  | ok _ => exact .inl ⟨rfl, rfl⟩
  | error refusal =>
    cases refusal with
    | unverified reason => exact .inr (.inl ⟨reason, rfl, rfl⟩)
    | rejected reason => exact .inr (.inr ⟨reason, rfl, rfl⟩)

theorem assertRelation_entries {doubt : Option String}
    (judged : replay.doubt causal assertion = some doubt) :
    (replay.assertRelation causal operation assertion).fold.entries.Perm
      (replay.fold.entries ++ [⟨assertion, doubt⟩]) := by
  rcases assertRelation_cases operation with ⟨verdict, made⟩ | ⟨reason, verdict, made⟩ |
    ⟨_, verdict, _⟩
  · rw [verdict, Option.some.injEq] at judged
    subst judged
    simp only [made, RelationFold.entries, List.map_append, List.map_cons, List.map_nil,
      List.append_assoc]
    exact List.Perm.append_left _ List.perm_append_comm
  · rw [verdict, Option.some.injEq] at judged
    subst judged
    simp [made, RelationFold.entries]
  · rw [verdict] at judged
    cases judged

theorem assertRelation_kept {doubt : Option String}
    (judged : replay.doubt causal assertion = some doubt) :
    (replay.assertRelation causal operation assertion).fold.rejected = replay.fold.rejected := by
  rcases assertRelation_cases operation with ⟨_, made⟩ | ⟨_, _, made⟩ | ⟨_, verdict, _⟩
  · rw [made]
  · rw [made]
  · rw [verdict] at judged
    cases judged

theorem assertRelation_rejected (judged : replay.doubt causal assertion = none) :
    ∃ reason, replay.assertRelation causal operation assertion =
      replay.reject operation reason := by
  rcases assertRelation_cases operation with ⟨verdict, _⟩ | ⟨_, verdict, _⟩ | ⟨reason, _, made⟩
  · rw [judged] at verdict
    cases verdict
  · rw [judged] at verdict
    cases verdict
  · exact ⟨reason, made⟩

variable {operation}

theorem Indexed.file (indexed : Indexed replay) {filed : RelationReplay} {doubt : Option String}
    {location : RelationLocation} (own : assertion.id = operation.hash)
    (signed : assertion.author = operation.author)
    (fresh : ∀ entry ∈ replay.fold.entries, entry.assertion.id ≠ operation.hash)
    (located : filed.assertions = replay.locate operation location)
    (entries : filed.fold.entries.Perm (replay.fold.entries ++ [⟨assertion, doubt⟩]))
    (relations : ∃ rest, filed.fold.relations = replay.fold.relations ++ rest)
    (unverified : ∃ rest, filed.fold.unverified = replay.fold.unverified ++ rest)
    (points : match location with
      | .valid index => filed.fold.relations[index]? = some assertion
      | .unverified index => ∃ held, filed.fold.unverified[index]? = some held ∧
          held.assertion = assertion) : Indexed filed where
  valid := by
    intro hash author index read
    rw [located, RelationReplay.locate] at read
    by_cases same : operation.hash = hash
    · subst same
      rw [Std.ExtTreeMap.getElem?_insert_self, Option.some.injEq] at read
      cases read
      exact ⟨assertion, points, own, signed⟩
    · rw [getElem?_insert_of_ne _ same] at read
      obtain ⟨relation, found, rest⟩ := indexed.valid hash author index read
      obtain ⟨added, grown⟩ := relations
      refine ⟨relation, ?_, rest⟩
      rw [grown, List.getElem?_append_left (List.getElem?_eq_some_iff.mp found).1, found]
  unverified := by
    intro hash author index read
    rw [located, RelationReplay.locate] at read
    by_cases same : operation.hash = hash
    · subst same
      rw [Std.ExtTreeMap.getElem?_insert_self, Option.some.injEq] at read
      cases read
      obtain ⟨held, found, holds⟩ := points
      exact ⟨held, found, by rw [holds, own], by rw [holds, signed]⟩
    · rw [getElem?_insert_of_ne _ same] at read
      obtain ⟨held, found, rest⟩ := indexed.unverified hash author index read
      obtain ⟨added, grown⟩ := unverified
      refine ⟨held, ?_, rest⟩
      rw [grown, List.getElem?_append_left (List.getElem?_eq_some_iff.mp found).1, found]
  known := by
    intro entry member
    rw [entries.mem_iff, List.mem_append, List.mem_singleton] at member
    rw [located, RelationReplay.locate]
    rcases member with earlier | rfl
    · rw [getElem?_insert_of_ne _ (fresh entry earlier).symm]
      exact indexed.known entry earlier
    · rw [own, Std.ExtTreeMap.getElem?_insert_self]
      exact ⟨_, rfl, signed.symm⟩
  distinct := by
    rw [(entries.map _).nodup_iff, List.map_append, List.map_singleton,
      List.nodup_append]
    refine ⟨indexed.distinct, by simp, ?_⟩
    intro earlier earlierMember last lastMember
    obtain ⟨entry, member, rfl⟩ := List.mem_map.mp earlierMember
    rw [List.mem_singleton] at lastMember
    subst lastMember
    rw [own]
    exact fresh entry member

theorem Indexed.assertRelation (indexed : Indexed replay)
    (own : assertion.id = operation.hash) (author : assertion.author = operation.author)
    (fresh : ∀ entry ∈ replay.fold.entries, entry.assertion.id ≠ operation.hash) :
    Indexed (replay.assertRelation causal operation assertion) := by
  rcases assertRelation_cases operation with ⟨verdict, made⟩ | ⟨reason, verdict, made⟩ |
    ⟨reason, _, made⟩
  · have entries := assertRelation_entries operation verdict
    rw [made] at entries ⊢
    exact indexed.file own author fresh rfl entries ⟨[assertion], rfl⟩ ⟨[], by simp⟩ (by simp)
  · have entries := assertRelation_entries operation verdict
    rw [made] at entries ⊢
    exact indexed.file own author fresh rfl entries ⟨[], by simp⟩ ⟨[⟨assertion, reason⟩], rfl⟩
      ⟨⟨assertion, reason⟩, by simp, rfl⟩
  · rw [made]
    exact indexed.reject reason

end

end KnotEditor
