import KnotEditor.Library.KeyedCollection
import KnotEditor.Library.LinearExtension
import KnotEditor.Sync.RelationFold

/-! Histories: lists of retained operations as stickleback orders them. Its index and its order
come from outside, so what replay relies on is stated here once and assumed by name. -/

namespace KnotEditor

open LinearExtensions KeyedCollections

def HashesIdentify (order : List Operation) : Prop :=
  ∀ first ∈ order, ∀ second ∈ order, first.hash = second.hash → first = second

def CausalIndex.Precedes (causal : CausalIndex) (earlier later : Operation) : Prop :=
  causal.happensBefore earlier.hash later.hash = true

instance (causal : CausalIndex) : DecidableRel causal.Precedes :=
  fun _ _ => inferInstanceAs (Decidable (_ = true))

structure CausalOrder (causal : CausalIndex) (order : List Operation) : Prop where
  distinct : (order.map Operation.hash).Nodup
  extension : LinearExtension causal.Precedes order

def SingleWriter (causal : CausalIndex) (order : List Operation) : Prop :=
  ∀ first ∈ order, ∀ second ∈ order, first.author = second.author → first ≠ second →
    causal.Precedes first second ∨ causal.Precedes second first

theorem HashesIdentify.sublist {order part : List Operation} (identify : HashesIdentify order)
    (included : part.Sublist order) : HashesIdentify part :=
  fun first firstFound second secondFound =>
    identify first (included.subset firstFound) second (included.subset secondFound)

theorem hashesIdentify_of_distinct {order : List Operation}
    (distinct : (order.map Operation.hash).Nodup) : HashesIdentify order :=
  fun _ firstFound _ secondFound same => List.inj_on_of_nodup_map distinct firstFound secondFound same

theorem SingleWriter.perm {causal : CausalIndex} {order other : List Operation}
    (chained : SingleWriter causal order) (same : order.Perm other) : SingleWriter causal other :=
  fun first firstFound second secondFound =>
    chained first (same.mem_iff.mpr firstFound) second (same.mem_iff.mpr secondFound)

theorem SingleWriter.sublist {causal : CausalIndex} {order part : List Operation}
    (chained : SingleWriter causal order) (included : part.Sublist order) :
    SingleWriter causal part :=
  fun first firstFound second secondFound =>
    chained first (included.subset firstFound) second (included.subset secondFound)

namespace CausalOrder

variable {causal : CausalIndex} {order other front back : List Operation} {operation : Operation}

theorem identify (ordered : CausalOrder causal order) : HashesIdentify order :=
  hashesIdentify_of_distinct ordered.distinct

theorem sublist (ordered : CausalOrder causal order) {part : List Operation}
    (included : part.Sublist order) : CausalOrder causal part where
  distinct := ordered.distinct.sublist (included.map Operation.hash)
  extension := ordered.extension.sublist included

theorem mem_front (ordered : CausalOrder causal (front ++ operation :: back)) {observed : Operation}
    (found : observed ∈ front ++ operation :: back)
    (before : causal.happensBefore observed.hash operation.hash = true) : observed ∈ front :=
  ordered.extension.mem_front found before

theorem hash_fresh (ordered : CausalOrder causal (front ++ operation :: back)) :
    ∀ earlier ∈ front, earlier.hash ≠ operation.hash := by
  intro earlier member clash
  have same := ordered.identify earlier (by simp [member]) operation (by simp) clash
  subst same
  exact ordered.extension.notMem_front member

theorem frontOrder (ordered : CausalOrder causal (front ++ operation :: back)) :
    CausalOrder causal front :=
  ordered.sublist (List.sublist_append_left front _)

theorem of_perm (ordered : CausalOrder causal order) (same : order.Perm other)
    (extension : LinearExtension causal.Precedes other) : CausalOrder causal other where
  distinct := (same.map Operation.hash).nodup ordered.distinct
  extension := extension

theorem collect_front {Value : Type} (value : Operation → Option Value)
    (ordered : CausalOrder causal (front ++ operation :: back)) {key : Bytes32}
    (before : causal.happensBefore key operation.hash = true) :
    (collect Operation.hash value front)[key]? =
      (collect Operation.hash value (front ++ operation :: back))[key]? := by
  refine getElem?_collect_prefix ordered.distinct fun writer member same => ?_
  rw [← same] at before
  exact ordered.mem_front member before

theorem filter_author_eq (left : CausalOrder causal order) (right : CausalOrder causal other)
    (same : order.Perm other) (chained : SingleWriter causal order) (author : Bytes32) :
    (order.filter fun operation => operation.author == author) =
      other.filter fun operation => operation.author == author := by
  refine left.extension.filter_eq_of_total right.extension same _ ?_
  intro first firstFound second secondFound firstMine secondMine distinct
  rw [beq_iff_eq] at firstMine secondMine
  exact chained first firstFound second secondFound (firstMine.trans secondMine.symm) distinct

end CausalOrder

def Operation.sample (hash author : UInt8) : Operation where
  hash := .filled hash
  header := {
    verifyingKey := .filled author
    seqNum := 0
    backlink := none
    extensions := {
      spaceId := .filled 0
      encryption := .personalVaultV1
      parents := []
      assertedAtMs := none }
    encoded := .empty }
  body := none

def Operation.sealed (hash author key : UInt8) : Operation :=
  { Operation.sample hash author with body := some ⟨#[key]⟩ }

def Operation.behind (operation : Operation) (parents : List UInt8) : Operation :=
  { operation with header.extensions.parents := parents.map .filled }

def CausalIndex.byHash : CausalIndex where
  happensBefore earlier later := decide (earlier < later)

def CausalIndex.ofPairs (pairs : List (UInt8 × UInt8)) : CausalIndex where
  happensBefore earlier later :=
    pairs.any fun pair => earlier == .filled pair.1 && later == .filled pair.2

def VaultDocument.sample (id : String) : VaultDocument where
  id := id
  title := ""
  body := .empty
  mediaType := "text/djot"

def KnotRelationEndpointV1.sample (id : String) (head : UInt8) : KnotRelationEndpointV1 where
  documentId := id
  documentHead := .filled head
  quote := ""
  position := none
  prefixText := ""
  suffixText := ""

end KnotEditor

/-! What each turn of `fold_relations` leaves alone. -/

namespace KnotEditor.RelationReplay

variable (replay : RelationReplay) (causal : CausalIndex) (scope : Bytes32) (operation : Operation)

section

variable (assertion : KnotRelationAssertionV1)

@[simp] theorem assertRelation_documents :
    (replay.assertRelation causal operation assertion).documents = replay.documents := by
  simp only [assertRelation, reject]
  split <;> rfl

@[simp] theorem assertRelation_catalog :
    (replay.assertRelation causal operation assertion).fold.catalog = replay.fold.catalog := by
  simp only [assertRelation, reject]
  split <;> rfl

end

section

variable (assertion : Bytes32)

@[simp] theorem retractRelation_documents :
    (replay.retractRelation causal operation assertion).documents = replay.documents := by
  rw [retractRelation, reject]
  repeat' split
  all_goals rfl

@[simp] theorem retractRelation_catalog :
    (replay.retractRelation causal operation assertion).fold.catalog = replay.fold.catalog := by
  rw [retractRelation, reject]
  repeat' split
  all_goals rfl

@[simp] theorem retractRelation_assertions :
    (replay.retractRelation causal operation assertion).assertions = replay.assertions := by
  rw [retractRelation, reject]
  repeat' split
  all_goals rfl

end

section

variable (proposal : PredicateProposal)

@[simp] theorem definePredicate_documents :
    (replay.definePredicate causal scope operation proposal).documents = replay.documents := by
  simp only [definePredicate]
  split <;> rfl

@[simp] theorem definePredicate_assertions :
    (replay.definePredicate causal scope operation proposal).assertions = replay.assertions := by
  simp only [definePredicate]
  split <;> rfl

@[simp] theorem definePredicate_relations :
    (replay.definePredicate causal scope operation proposal).fold.relations =
      replay.fold.relations := by
  simp only [definePredicate]
  split <;> rfl

@[simp] theorem definePredicate_rejected :
    (replay.definePredicate causal scope operation proposal).fold.rejected =
      replay.fold.rejected := by
  simp only [definePredicate]
  split <;> rfl

@[simp] theorem definePredicate_unverified :
    (replay.definePredicate causal scope operation proposal).fold.unverified =
      replay.fold.unverified := by
  simp only [definePredicate]
  split <;> rfl

end

theorem replayRelations_append_singleton (events : Operation → Option KnotSyncEvent)
    (front : List Operation) :
    replayRelations (front ++ [operation]) events causal scope =
      (replayRelations front events causal scope).step events causal scope operation := by
  simp [replayRelations]

end KnotEditor.RelationReplay
