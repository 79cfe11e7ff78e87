import KnotEditor.Sync.Convergence

/-! Diagnostics: which bucket an assertion or a retraction is sorted into, and when that depends on
the order of the replay. -/

namespace KnotEditor

open Accumulations KeyedCollections

def LedgerEntry.Mentions (entry : LedgerEntry) (hash : Bytes32) : Prop :=
  entry.assertion.id = hash ∨
    ∃ retraction ∈ entry.assertion.retractions, retraction.operation = hash

namespace RelationFold

variable (fold : RelationFold) (hash : Bytes32)

def Valid : Prop :=
  ∃ relation ∈ fold.relations, relation.id = hash ∨
    ∃ retraction ∈ relation.retractions, retraction.operation = hash

def Unverified : Prop :=
  ∃ held ∈ fold.unverified, held.assertion.id = hash ∨
    ∃ retraction ∈ held.assertion.retractions, retraction.operation = hash

def Rejected : Prop := ∃ refusal ∈ fold.rejected, refusal.operation = hash

def SameBucket (left right : RelationFold) : Prop :=
  (left.Valid hash ↔ right.Valid hash) ∧ (left.Unverified hash ↔ right.Unverified hash) ∧
    (left.Rejected hash ↔ right.Rejected hash)

theorem valid_iff :
    fold.Valid hash ↔ ∃ entry ∈ fold.entries, entry.doubt.isSome = false ∧ entry.Mentions hash := by
  simp only [Valid, entries, LedgerEntry.Mentions]
  constructor
  · rintro ⟨relation, member, mentions⟩
    exact ⟨⟨relation, none⟩, by simp [member], rfl, mentions⟩
  · rintro ⟨entry, member, verified, mentions⟩
    rw [List.mem_append, List.mem_map, List.mem_map] at member
    rcases member with ⟨relation, found, rfl⟩ | ⟨held, _, rfl⟩
    · exact ⟨relation, found, mentions⟩
    · cases verified

theorem unverified_iff :
    fold.Unverified hash ↔
      ∃ entry ∈ fold.entries, entry.doubt.isSome = true ∧ entry.Mentions hash := by
  simp only [Unverified, entries, LedgerEntry.Mentions]
  constructor
  · rintro ⟨held, member, mentions⟩
    exact ⟨⟨held.assertion, some held.reason⟩, by simpa using ⟨held, member, rfl, rfl⟩, rfl,
      mentions⟩
  · rintro ⟨entry, member, doubted, mentions⟩
    rw [List.mem_append, List.mem_map, List.mem_map] at member
    rcases member with ⟨relation, _, rfl⟩ | ⟨held, found, rfl⟩
    · cases doubted
    · exact ⟨held, found, mentions⟩

end RelationFold

section

variable {events : Operation → Option KnotSyncEvent} {causal : CausalIndex} {scope : Bytes32}
variable {order other front back : List Operation} {operation : Operation}
variable {assertion : KnotRelationAssertionV1} {entry : LedgerEntry}

theorem withdrawalFrom_operation {retraction : KnotRelationRetractionV1}
    (withdraws : withdrawalFrom events causal assertion operation = some retraction) :
    retraction.operation = operation.hash ∧ (withdrawn events operation).isSome = true := by
  obtain ⟨target, read, made⟩ := Option.bind_eq_some_iff.mp withdraws
  split at made
  next =>
    cases made
    exact ⟨rfl, by simp [read]⟩
  next => cases made

theorem mentions_observe {hash : Bytes32} (other : hash ≠ operation.hash) :
    (entry.observe events causal operation).Mentions hash ↔ entry.Mentions hash := by
  rw [LedgerEntry.Mentions, LedgerEntry.observe]
  refine or_congr_right ?_
  simp only [List.mem_append, Option.mem_toList]
  constructor
  · rintro ⟨retraction, found | added, same⟩
    · exact ⟨retraction, found, same⟩
    · exact absurd (same.symm.trans (withdrawalFrom_operation added).1) other
  · rintro ⟨retraction, found, same⟩
    exact ⟨retraction, .inl found, same⟩

structure Sorted (events : Operation → Option KnotSyncEvent) (scope : Bytes32)
    (order : List Operation) (fold : RelationFold) : Prop where
  refused : ∀ hash, fold.Rejected hash → ∃ operation ∈ order, operation.hash = hash
  mentioned : ∀ hash, (∃ entry ∈ fold.entries, entry.Mentions hash) →
    ∃ operation ∈ order, operation.hash = hash
  once : ∀ operation ∈ order, ((asserted events scope operation).isSome = true ∨
    (withdrawn events operation).isSome = true) →
      (fold.Rejected operation.hash ↔ ¬ ∃ entry ∈ fold.entries, entry.Mentions operation.hash)

variable (events causal scope)

theorem step_sorts {replay : RelationReplay} (indexed : Indexed replay) :
    (((replay.step events causal scope operation).fold.rejected = replay.fold.rejected) ∧
      ((asserted events scope operation).isSome = true ∨
        (withdrawn events operation).isSome = true →
          ∃ entry ∈ (replay.step events causal scope operation).fold.entries,
            entry.Mentions operation.hash)) ∨
    (∃ reason, (replay.step events causal scope operation) = replay.reject operation reason) := by
  cases asserts : asserted events scope operation with
  | some assertion =>
    obtain ⟨own, _, _⟩ := asserted_signed asserts
    rw [step_of_asserted events causal scope replay operation asserts]
    cases judged : replay.doubt causal assertion with
    | none => exact .inr (assertRelation_rejected operation judged)
    | some doubt =>
      refine .inl ⟨?_, fun _ => ⟨⟨assertion, doubt⟩, ?_, .inl own⟩⟩
      · exact assertRelation_kept operation judged
      · rw [(assertRelation_entries operation judged).mem_iff]
        simp
  | none =>
    cases withdraws : withdrawn events operation with
    | none =>
      obtain ⟨_, _, _, rejected⟩ :=
        step_frame events causal scope replay operation asserts withdraws
      exact .inl ⟨rejected, by simp⟩
    | some target =>
      rw [step_of_withdrawn events causal scope replay operation withdraws]
      by_cases passes : Withdrawable replay causal operation target
      · obtain ⟨state, read, author, observed⟩ := passes
        obtain ⟨entry, member, own⟩ := indexed.located read
        refine .inl ⟨indexed.retractRelation_rejected read author observed, fun _ =>
          ⟨entry.withdraw target (retractionBy operation), ?_, .inr ?_⟩⟩
        · rw [indexed.retractRelation_entries read author observed]
          exact List.mem_map_of_mem member
        · refine ⟨retractionBy operation, ?_, rfl⟩
          simp [LedgerEntry.withdraw, KnotRelationAssertionV1.withdraw, own]
      · exact .inr (Indexed.retractRelation_refused passes)

theorem step_mentions {replay : RelationReplay} (indexed : Indexed replay)
    (fresh : ∀ entry ∈ replay.fold.entries, entry.assertion.id ≠ operation.hash)
    {hash : Bytes32} (other : hash ≠ operation.hash) :
    (∃ entry ∈ (replay.step events causal scope operation).fold.entries, entry.Mentions hash) ↔
      ∃ entry ∈ replay.fold.entries, entry.Mentions hash := by
  have entries := (step_entries events causal scope indexed fresh).2
  constructor
  · rintro ⟨entry, member, mentions⟩
    rcases (entries entry).mp member with ⟨doubt, assertion, asserts, _, rfl⟩ |
      ⟨earlier, found, rfl⟩
    · obtain ⟨own, _, bare⟩ := asserted_signed asserts
      rcases mentions with same | ⟨retraction, found, _⟩
      · exact absurd (same.symm.trans own) other
      · rw [bare] at found
        cases found
    · exact ⟨earlier, found, (mentions_observe other).mp mentions⟩
  · rintro ⟨entry, member, mentions⟩
    exact ⟨entry.observe events causal operation, (entries _).mpr (.inr ⟨entry, member, rfl⟩),
      (mentions_observe other).mpr mentions⟩

theorem Sorted.step {replay : RelationReplay} (sorts : Sorted events scope front replay.fold)
    (indexed : Indexed replay)
    (fresh : ∀ entry ∈ replay.fold.entries, entry.assertion.id ≠ operation.hash)
    (unused : ∀ earlier ∈ front, earlier.hash ≠ operation.hash) :
    Sorted events scope (front ++ [operation])
      (replay.step events causal scope operation).fold := by
  have mentions {hash : Bytes32} (other : hash ≠ operation.hash) :=
    step_mentions events causal scope indexed fresh other
  have notRefused : ¬ replay.fold.Rejected operation.hash := by
    intro refused
    obtain ⟨earlier, found, own⟩ := sorts.refused operation.hash refused
    exact unused earlier found own
  have notMentioned : ¬ ∃ entry ∈ replay.fold.entries, entry.Mentions operation.hash := by
    intro mentioned
    obtain ⟨earlier, found, own⟩ := sorts.mentioned operation.hash mentioned
    exact unused earlier found own
  have rejects {hash : Bytes32} (other : hash ≠ operation.hash) :
      (replay.step events causal scope operation).fold.Rejected hash ↔
        replay.fold.Rejected hash := by
    simp only [RelationFold.Rejected]
    rcases step_sorts events causal scope indexed with ⟨kept, _⟩ | ⟨reason, refused⟩
    · rw [kept]
    · rw [refused]
      simp [RelationReplay.reject, or_and_right, exists_or, other.symm]
  refine ⟨fun hash refused => ?_, fun hash mentioned => ?_, fun found member signs => ?_⟩
  · by_cases same : hash = operation.hash
    · exact ⟨operation, by simp, same.symm⟩
    · obtain ⟨earlier, found, own⟩ := sorts.refused hash ((rejects same).mp refused)
      exact ⟨earlier, by simp [found], own⟩
  · by_cases same : hash = operation.hash
    · exact ⟨operation, by simp, same.symm⟩
    · obtain ⟨earlier, found, own⟩ := sorts.mentioned hash ((mentions same).mp mentioned)
      exact ⟨earlier, by simp [found], own⟩
  · rw [List.mem_append, List.mem_singleton] at member
    rcases member with earlier | rfl
    · rw [rejects (unused found earlier), mentions (unused found earlier)]
      exact sorts.once found earlier signs
    · rcases step_sorts events causal scope indexed with ⟨kept, files⟩ | ⟨reason, refused⟩
      · have filed := files signs
        rw [RelationFold.Rejected, kept]
        exact ⟨fun refused => absurd refused notRefused, fun absent => absurd filed absent⟩
      · rw [refused]
        refine ⟨fun _ => notMentioned, fun _ => ?_⟩
        exact ⟨⟨found.hash, found.author, reason⟩, by simp [RelationReplay.reject], rfl⟩

theorem sorted_of_distinct (distinct : (order.map Operation.hash).Nodup) :
    Sorted events scope order (foldRelations order events causal scope) := by
  rw [foldRelations]
  induction order using List.reverseRecOn with
  | nil =>
    constructor <;> simp [replayRelations, RelationFold.entries, RelationFold.Rejected]
  | append_singleton front last ih =>
    rw [List.map_append, List.nodup_append] at distinct
    obtain ⟨indexed, filed⟩ := replayRelations_entries events causal scope distinct.1
    have unused : ∀ earlier ∈ front, earlier.hash ≠ last.hash := by
      intro earlier member
      exact distinct.2.2 _ (List.mem_map_of_mem member) _ (by simp)
    have fresh := fresh_of_filed events causal scope (fun entry => (filed entry).mp) unused
    rw [RelationReplay.replayRelations_append_singleton]
    exact (ih distinct.1).step events causal scope indexed fresh unused

end

section

variable {events : Operation → Option KnotSyncEvent} {causal : CausalIndex} {scope : Bytes32}
variable {order left right front back : List Operation} {operation : Operation}
variable {assertion : KnotRelationAssertionV1}

theorem entries_mention_iff (ordered : CausalOrder causal order) (held : Bool) (hash : Bytes32) :
    (∃ entry ∈ (foldRelations order events causal scope).entries,
      entry.doubt.isSome = held ∧ entry.Mentions hash) ↔
      ∃ front operation back assertion doubt, order = front ++ operation :: back ∧
        asserted events scope operation = some assertion ∧
        (replayRelations front events causal scope).doubt causal assertion = some doubt ∧
        doubt.isSome = held ∧ (assertion.id = hash ∨
          ∃ retraction ∈ withdrawals events causal assertion order,
            retraction.operation = hash) := by
  simp only [foldRelations, (replayRelations_entries events causal scope ordered.distinct).2]
  constructor
  · rintro ⟨entry, ⟨front, operation, back, assertion, doubt, rfl, asserts, judged⟩, same,
      mentions⟩
    refine ⟨front, operation, back, assertion, doubt, rfl, asserts, judged, same, ?_⟩
    rw [withdrawals_whole ordered asserts]
    exact mentions
  · rintro ⟨front, operation, back, assertion, doubt, rfl, asserts, judged, same, mentions⟩
    rw [withdrawals_whole ordered asserts] at mentions
    exact ⟨_, ⟨front, operation, back, assertion, doubt, rfl, asserts, judged⟩, same, mentions⟩

theorem unverified_assertion_iff (ordered : CausalOrder causal (front ++ operation :: back))
    (asserts : asserted events scope operation = some assertion) :
    (foldRelations (front ++ operation :: back) events causal scope).Unverified operation.hash ↔
      ∃ reason, (replayRelations front events causal scope).doubt causal assertion =
        some (some reason) := by
  rw [RelationFold.unverified_iff, entries_mention_iff ordered]
  constructor
  · rintro ⟨otherFront, other, otherBack, otherAssertion, doubt, split, otherAsserts, judged, held,
      own | ⟨retraction, member, own⟩⟩
    · obtain ⟨rfl, rfl, _⟩ := split_unique ordered.distinct split
        (own.symm.trans (asserted_signed otherAsserts).1)
      rw [asserts, Option.some.injEq] at otherAsserts
      subst otherAsserts
      obtain ⟨reason, rfl⟩ := Option.isSome_iff_exists.mp held
      exact ⟨reason, judged⟩
    · obtain ⟨withdrawer, found, withdraws⟩ := List.mem_filterMap.mp member
      obtain ⟨signed, marks⟩ := withdrawalFrom_operation withdraws
      have same := ordered.identify withdrawer found operation (by simp) (signed.symm.trans own)
      subst same
      rw [withdrawn_of_asserted events scope withdrawer asserts] at marks
      cases marks
  · rintro ⟨reason, judged⟩
    exact ⟨front, operation, back, assertion, some reason, rfl, asserts, judged, rfl,
      .inl (asserted_signed asserts).1⟩

end

end KnotEditor
