import KnotEditor.Sync.RelationReplay

/-! What a whole replay files: each assertion under the verdict of its own turn, with the
retractions its author signed after it. -/

namespace KnotEditor

open Accumulations KeyedCollections

section

variable (events : Operation → Option KnotSyncEvent) (causal : CausalIndex) (scope : Bytes32)

def withdrawalFrom (assertion : KnotRelationAssertionV1) (operation : Operation) :
    Option KnotRelationRetractionV1 :=
  (withdrawn events operation).bind fun target =>
    if target = assertion.id ∧ assertion.author = operation.author ∧
        causal.happensBefore assertion.id operation.hash = true then
      some (retractionBy operation)
    else none

def withdrawals (assertion : KnotRelationAssertionV1) (operations : List Operation) :
    List KnotRelationRetractionV1 :=
  operations.filterMap (withdrawalFrom events causal assertion)

/-- An entry is filed by the operation that asserted it, under the verdict of its turn. -/
inductive Filed (order : List Operation) : LedgerEntry → Prop
  | intro (front : List Operation) (operation : Operation) (back : List Operation)
      (assertion : KnotRelationAssertionV1) (doubt : Option String)
      (split : order = front ++ operation :: back)
      (asserts : asserted events scope operation = some assertion)
      (judged : (replayRelations front events causal scope).doubt causal assertion = some doubt) :
      Filed order
        ⟨{ assertion with retractions := withdrawals events causal assertion back }, doubt⟩

end

section

variable {events : Operation → Option KnotSyncEvent} {causal : CausalIndex} {scope : Bytes32}
variable {order front : List Operation} {operation last : Operation} {entry : LedgerEntry}
variable {assertion : KnotRelationAssertionV1}

theorem asserted_signed (asserts : asserted events scope operation = some assertion) :
    assertion.id = operation.hash ∧ assertion.author = operation.author ∧
      assertion.retractions = [] := by
  obtain ⟨event, read, made⟩ := Option.bind_eq_some_iff.mp asserts
  cases event <;> cases made
  exact ⟨rfl, rfl, rfl⟩

theorem asserted_operation (asserts : asserted events scope operation = some assertion) :
    assertion.operation = operation.hash := by
  obtain ⟨event, read, made⟩ := Option.bind_eq_some_iff.mp asserts
  cases event <;> cases made
  rfl

theorem withdrawals_append_singleton (assertion : KnotRelationAssertionV1)
    (back : List Operation) (last : Operation) :
    withdrawals events causal assertion (back ++ [last]) =
      withdrawals events causal assertion back ++
        (withdrawalFrom events causal assertion last).toList := by
  simp only [withdrawals]
  rw [List.filterMap_append]
  cases found : withdrawalFrom events causal assertion last <;> simp [found]

theorem Filed.origin (filed : Filed events causal scope order entry) :
    ∃ operation ∈ order, entry.assertion.id = operation.hash ∧
      entry.assertion.author = operation.author := by
  obtain ⟨front, operation, back, assertion, doubt, split, asserts, _⟩ := filed
  obtain ⟨own, signed, _⟩ := asserted_signed asserts
  exact ⟨operation, by simp [split], own, signed⟩

def LedgerEntry.observe (entry : LedgerEntry) (events : Operation → Option KnotSyncEvent)
    (causal : CausalIndex) (operation : Operation) : LedgerEntry :=
  { entry with assertion.retractions := entry.assertion.retractions ++
      (withdrawalFrom events causal entry.assertion operation).toList }

theorem filed_append_singleton :
    Filed events causal scope (front ++ [last]) entry ↔
      (∃ doubt assertion, asserted events scope last = some assertion ∧
        (replayRelations front events causal scope).doubt causal assertion = some doubt ∧
        entry = ⟨assertion, doubt⟩) ∨
      ∃ earlier, Filed events causal scope front earlier ∧
        entry = earlier.observe events causal last := by
  constructor
  · rintro ⟨before, operation, back, assertion, doubt, split, asserts, judged⟩
    rcases append_singleton_eq_iff.mp split with ⟨rfl, rfl, rfl⟩ | ⟨rest, rfl, rfl⟩
    · refine .inl ⟨doubt, assertion, asserts, judged, ?_⟩
      simp [withdrawals, ← (asserted_signed asserts).2.2]
    · refine .inr ⟨_, ⟨before, operation, rest, assertion, doubt, rfl, asserts, judged⟩, ?_⟩
      rw [withdrawals_append_singleton]
      rfl
  · rintro (⟨doubt, assertion, asserts, judged, rfl⟩ | ⟨earlier, filed, rfl⟩)
    · have filed := Filed.intro front last [] assertion doubt rfl asserts judged
      simp only [withdrawals, List.filterMap_nil, ← (asserted_signed asserts).2.2] at filed
      exact filed
    · obtain ⟨before, operation, back, assertion, doubt, rfl, asserts, judged⟩ := filed
      have filed := Filed.intro before operation (back ++ [last]) assertion doubt rfl asserts judged
      rw [withdrawals_append_singleton] at filed
      rw [List.append_assoc, List.cons_append]
      exact filed

theorem withdrawalFrom_of_withdrawn {target : Bytes32}
    (withdraws : withdrawn events operation = some target) :
    withdrawalFrom events causal assertion operation =
      if target = assertion.id ∧ assertion.author = operation.author ∧
          causal.happensBefore assertion.id operation.hash = true then
        some (retractionBy operation)
      else none := by
  rw [withdrawalFrom, withdraws, Option.bind_some]

theorem observe_of_none (noWithdrawal : withdrawalFrom events causal entry.assertion operation =
    none) : entry.observe events causal operation = entry := by
  rw [LedgerEntry.observe, noWithdrawal, Option.toList_none, List.append_nil]

theorem observe_of_withdrawable {replay : RelationReplay} {target : Bytes32}
    (indexed : Indexed replay) (withdraws : withdrawn events operation = some target)
    (passes : Withdrawable replay causal operation target) :
    ∀ entry ∈ replay.fold.entries, entry.observe events causal operation =
      entry.withdraw target (retractionBy operation) := by
  intro entry member
  obtain ⟨state, read, author, observed⟩ := passes
  obtain ⟨known, located, signed⟩ := indexed.known entry member
  rw [LedgerEntry.observe, LedgerEntry.withdraw, KnotRelationAssertionV1.withdraw,
    withdrawalFrom_of_withdrawn withdraws]
  by_cases named : entry.assertion.id = target
  · rw [named, read, Option.some.injEq] at located
    subst located
    simp [named, ← signed, author, observed]
  · simp [named, Ne.symm named]

theorem observe_of_not_withdrawable {replay : RelationReplay} {target : Bytes32}
    (indexed : Indexed replay) (withdraws : withdrawn events operation = some target)
    (refused : ¬ Withdrawable replay causal operation target) :
    ∀ entry ∈ replay.fold.entries, entry.observe events causal operation = entry := by
  intro entry member
  refine observe_of_none ?_
  rw [withdrawalFrom_of_withdrawn withdraws, if_neg]
  rintro ⟨rfl, author, observed⟩
  obtain ⟨known, located, signed⟩ := indexed.known entry member
  exact refused ⟨known, located, signed.trans author, observed⟩

variable (events causal scope)

theorem step_entries {replay : RelationReplay} (indexed : Indexed replay)
    (fresh : ∀ entry ∈ replay.fold.entries, entry.assertion.id ≠ operation.hash) :
    Indexed (replay.step events causal scope operation) ∧
      ∀ entry, entry ∈ (replay.step events causal scope operation).fold.entries ↔
        (∃ doubt assertion, asserted events scope operation = some assertion ∧
          replay.doubt causal assertion = some doubt ∧ entry = ⟨assertion, doubt⟩) ∨
        ∃ earlier ∈ replay.fold.entries, entry = earlier.observe events causal operation := by
  cases asserts : asserted events scope operation with
  | some assertion =>
    have unmoved (earlier : LedgerEntry) : earlier.observe events causal operation = earlier := by
      refine observe_of_none ?_
      rw [withdrawalFrom, withdrawn_of_asserted events scope operation asserts]
      rfl
    obtain ⟨own, signed, _⟩ := asserted_signed asserts
    rw [step_of_asserted events causal scope replay operation asserts]
    refine ⟨indexed.assertRelation own signed fresh, fun entry => ?_⟩
    cases judged : replay.doubt causal assertion with
    | none =>
      obtain ⟨reason, refused⟩ := assertRelation_rejected operation judged
      rw [refused]
      simp [unmoved, judged, RelationReplay.reject, RelationFold.entries]
    | some doubt =>
      rw [(assertRelation_entries operation judged).mem_iff]
      simp [unmoved, judged, or_comm]
  | none =>
    cases withdraws : withdrawn events operation with
    | none =>
      have unmoved (earlier : LedgerEntry) :
          earlier.observe events causal operation = earlier := by
        refine observe_of_none ?_
        rw [withdrawalFrom, withdraws]
        rfl
      obtain ⟨assertions, relations, unverified, _⟩ :=
        step_frame events causal scope replay operation asserts withdraws
      refine ⟨indexed.frame assertions relations unverified, fun entry => ?_⟩
      rw [RelationFold.entries, relations, unverified, ← RelationFold.entries]
      simp [unmoved]
    | some target =>
      rw [step_of_withdrawn events causal scope replay operation withdraws]
      refine ⟨indexed.retractRelation, fun entry => ?_⟩
      simp only [reduceCtorEq, false_and, exists_false, false_or]
      by_cases passes : Withdrawable replay causal operation target
      · have observes := observe_of_withdrawable indexed withdraws passes
        obtain ⟨state, read, author, observed⟩ := passes
        rw [indexed.retractRelation_entries read author observed, List.mem_map]
        refine exists_congr fun earlier => and_congr_right fun member => ?_
        rw [observes earlier member, eq_comm]
      · have observes := observe_of_not_withdrawable indexed withdraws passes
        obtain ⟨reason, refused⟩ := Indexed.retractRelation_refused passes
        rw [refused]
        constructor
        · intro member
          exact ⟨entry, member, (observes entry member).symm⟩
        · rintro ⟨earlier, member, rfl⟩
          rw [observes earlier member]
          exact member

theorem fresh_of_filed {front : List Operation}
    (filed : ∀ entry ∈ (replayRelations front events causal scope).fold.entries,
      Filed events causal scope front entry)
    (unused : ∀ earlier ∈ front, earlier.hash ≠ operation.hash) :
    ∀ entry ∈ (replayRelations front events causal scope).fold.entries,
      entry.assertion.id ≠ operation.hash := by
  intro entry member
  obtain ⟨origin, originFound, own, _⟩ := (filed entry member).origin
  rw [own]
  exact unused origin originFound

theorem replayRelations_entries (distinct : (order.map Operation.hash).Nodup) :
    Indexed (replayRelations order events causal scope) ∧
      ∀ entry, entry ∈ (replayRelations order events causal scope).fold.entries ↔
        Filed events causal scope order entry := by
  induction order using List.reverseRecOn with
  | nil =>
    refine ⟨Indexed.empty, fun entry => ⟨fun member => ?_, ?_⟩⟩
    · simp [replayRelations, RelationFold.entries] at member
    · rintro ⟨front, operation, back, assertion, doubt, split, _⟩
      simp at split
  | append_singleton front last ih =>
    rw [List.map_append, List.nodup_append] at distinct
    obtain ⟨indexed, filed⟩ := ih distinct.1
    have unused : ∀ earlier ∈ front, earlier.hash ≠ last.hash := by
      intro earlier member
      exact distinct.2.2 _ (List.mem_map_of_mem member) _ (by simp)
    have fresh := fresh_of_filed events causal scope (fun entry => (filed entry).mp) unused
    obtain ⟨stepIndexed, entries⟩ := step_entries events causal scope indexed fresh
    rw [RelationReplay.replayRelations_append_singleton]
    refine ⟨stepIndexed, fun entry => ?_⟩
    rw [entries, filed_append_singleton]
    simp only [filed]

end

end KnotEditor
