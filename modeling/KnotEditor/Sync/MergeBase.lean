import KnotEditor.Sync.HeadVersions

/-! The base of an automatic merge. It is the last common ancestor that has a document; a common
ancestor that deletes the document is passed over, also where it comes after the base. -/

namespace KnotEditor

open Fallible KeyedCollections

section

variable (events : Operation → Option KnotSyncEvent) (causal : CausalIndex)

def versionRecord (operation : Operation) : Option VersionRecord :=
  (written events operation).map fun write =>
    { operation := operation.hash, id := write.1, document := write.2 }

/-- The operation writes the document id, deletions included, and every version descends from it. -/
structure CommonAncestor (order : List Operation) (id : String) (versions : WriterVersions)
    (operation : Operation) : Prop where
  member : operation ∈ order
  writes : writtenId events operation = some id
  before : ∀ version ∈ versions.values,
    causal.happensBefore operation.hash version.operation = true

def Deletes (operation : Operation) (id : String) : Prop := written events operation = some (id, none)

def LastShared (order : List Operation) (id : String) (versions : WriterVersions)
    (operation : Operation) : Prop :=
  ∃ front back, order = front ++ operation :: back ∧
    CommonAncestor events causal order id versions operation ∧ ¬ Deletes events operation id ∧
    ∀ later ∈ back, CommonAncestor events causal order id versions later →
      Deletes events later id

/-- Both versions descend from a deletion that follows the last document both descend from. -/
def DeletedBetween (order : List Operation) (id : String) (versions : WriterVersions) : Prop :=
  ∃ shared deletion, LastShared events causal order id versions shared ∧
    CommonAncestor events causal order id versions deletion ∧ Deletes events deletion id ∧
    causal.Precedes shared deletion

def MaximalBase (order : List Operation) (id : String) (versions : WriterVersions)
    (base : Bytes32) : Prop :=
  ∃ operation, operation.hash = base ∧ CommonAncestor events causal order id versions operation ∧
    ∀ other, CommonAncestor events causal order id versions other →
      ¬ causal.Precedes operation other

end

section

variable {host : MergeHost} {events : Operation → Option KnotSyncEvent} {causal : CausalIndex}
variable {order : List Operation} {id : String} {versions : WriterVersions}
variable {history : List VersionRecord} {automatic : KnotAutomaticTextMerge}

theorem advance_versionHistory (replay : DocumentReplay) (operation : Operation) :
    (replay.advance events causal operation).versionHistory =
      replay.versionHistory ++ (versionRecord events operation).toList := by
  cases wrote : written events operation with
  | none =>
    rw [advance_of_not_written wrote, versionRecord, wrote]
    exact (List.append_nil _).symm
  | some write =>
    rw [advance_eq wrote, versionRecord, wrote]
    rfl

theorem replayDocuments_versionHistory (order : List Operation) :
    (replayDocuments events causal order).versionHistory =
      order.filterMap (versionRecord events) := by
  induction order using List.reverseRecOn with
  | nil => rfl
  | append_singleton front last ih =>
    rw [replayDocuments_append_singleton, advance_versionHistory, ih, List.filterMap_append]
    cases recorded : versionRecord events last <;> simp [recorded]

theorem versionRecord_eq_some_iff {operation : Operation} {record : VersionRecord} :
    versionRecord events operation = some record ↔
      written events operation = some (record.id, record.document) ∧
        operation.hash = record.operation := by
  rw [versionRecord, Option.map_eq_some_iff]
  constructor
  · rintro ⟨write, wrote, rfl⟩
    exact ⟨wrote, rfl⟩
  · rintro ⟨wrote, same⟩
    exact ⟨_, wrote, by rw [same]⟩

theorem commonAncestor_spec {left right : KnotDocumentVersion} {base : Bytes32}
    {document : VaultDocument}
    (found : commonAncestor causal history id left right = some (base, document)) :
    ∃ front record back, history = front ++ record :: back ∧ record.operation = base ∧
      record.document = some document ∧ record.id = id ∧
      causal.happensBefore base left.operation = true ∧
      causal.happensBefore base right.operation = true ∧
      ∀ later ∈ back, later.id = id → later.document ≠ none →
        causal.happensBefore later.operation left.operation = true →
        causal.happensBefore later.operation right.operation ≠ true := by
  obtain ⟨passed, record, rest, split, taken, skipped⟩ := List.findSome?_eq_some_iff.mp found
  obtain ⟨chosen, read, taken⟩ := Option.bind_eq_some_iff.mp taken
  split at taken
  next holds =>
    cases taken
    refine ⟨rest.reverse, record, passed.reverse, ?_, rfl, read, holds.1, holds.2.1, holds.2.2, ?_⟩
    · rw [← List.reverse_reverse history, split]
      simp
    · intro later member same carries left right
      obtain ⟨other, carried⟩ := Option.ne_none_iff_exists'.mp carries
      have none_ := skipped later (List.mem_reverse.mp member)
      rw [carried] at none_
      simp only [bind, Option.bind_some, same, left, right, and_self, if_true] at none_
      cases none_
  next => cases taken

theorem base_of_merge (merged : automaticTextMerge host causal
      (replayDocuments events causal order).versionHistory id versions = some automatic) :
    ∃ operation, operation.hash = automatic.base ∧
      LastShared events causal order id versions operation := by
  unfold automaticTextMerge at merged
  split at merged
  next left right values =>
    simp only [Option.bind_eq_bind, Option.bind_eq_some_iff] at merged
    obtain ⟨_, _, _, _, ⟨base, document⟩, found, _, _, result⟩ := merged
    cases result
    obtain ⟨front, record, back, split, rfl, carries, same, onLeft, onRight, passed⟩ :=
      commonAncestor_spec found
    rw [replayDocuments_versionHistory] at split
    obtain ⟨early, late, rfl, _, tail⟩ := List.filterMap_eq_append_iff.mp split
    obtain ⟨silent, operation, behind, rfl, _, recorded, rest⟩ := List.filterMap_eq_cons_iff.mp tail
    obtain ⟨wrote, hash⟩ := versionRecord_eq_some_iff.mp recorded
    rw [same, carries] at wrote
    refine ⟨operation, hash, early ++ silent, behind, by simp, ?_, ?_, ?_⟩
    · refine ⟨by simp, writtenId_eq_some_iff.mpr ⟨_, wrote⟩, ?_⟩
      rw [values, List.forall_mem_cons, List.forall_mem_singleton, hash]
      exact ⟨onLeft, onRight⟩
    · rw [Deletes, wrote]
      simp
    · intro later member ancestor
      obtain ⟨written_, wroteLater⟩ := writtenId_eq_some_iff.mp ancestor.writes
      have before := ancestor.before
      rw [values, List.forall_mem_cons, List.forall_mem_singleton] at before
      cases carried : written_ with
      | none => rwa [carried] at wroteLater
      | some other =>
        have listed : (⟨later.hash, id, some other⟩ : VersionRecord) ∈ back := by
          rw [← rest, List.mem_filterMap]
          exact ⟨later, member, versionRecord_eq_some_iff.mpr ⟨carried ▸ wroteLater, rfl⟩⟩
        exact absurd before.2 (passed _ listed rfl (Option.some_ne_none other) before.1)
  next => cases merged

theorem LastShared.unique {one two : Operation}
    (first : LastShared events causal order id versions one)
    (second : LastShared events causal order id versions two) : one = two := by
  obtain ⟨front, back, split, ancestor, carries, none_⟩ := first
  obtain ⟨ahead, behind, splitToo, ancestorToo, carriesToo, noneToo⟩ := second
  rw [split] at splitToo
  rcases List.append_eq_append_iff.mp splitToo with ⟨between, _, tail⟩ | ⟨between, _, tail⟩
  · rcases List.cons_eq_append_iff.mp tail with ⟨_, same⟩ | ⟨more, _, same⟩
    · exact (List.cons.inj same).1.symm
    · exact absurd (none_ two (same ▸ by simp) ancestorToo) carriesToo
  · rcases List.cons_eq_append_iff.mp tail with ⟨_, same⟩ | ⟨more, _, same⟩
    · exact (List.cons.inj same).1
    · exact absurd (noneToo one (same ▸ by simp) ancestor) carries

theorem maximalBase_iff (ordered : CausalOrder causal order) {operation : Operation}
    (shared : LastShared events causal order id versions operation) :
    MaximalBase events causal order id versions operation.hash ↔
      ¬ DeletedBetween events causal order id versions := by
  constructor
  · rintro ⟨base, hash, ancestor, maximal⟩ ⟨last, deletion, lastShared, among, deletes, follows⟩
    have same : base = operation := by
      obtain ⟨front, back, _, own, _⟩ := shared
      exact ordered.identify base ancestor.member operation own.member hash
    rw [same, shared.unique lastShared] at maximal
    exact maximal deletion among follows
  · intro kept
    have whole := shared
    obtain ⟨front, back, rfl, ancestor, _, passed⟩ := shared
    refine ⟨operation, rfl, ancestor, fun other among follows => kept ?_⟩
    have behind := ordered.extension.mem_back among.member follows
    exact ⟨operation, other, whole, among, passed other behind among, follows⟩

/-- The base an automatic merge reports is a maximal common ancestor unless both versions descend
from a deletion that follows the last document they share. -/
theorem merge_base_is_maximal_iff (host : MergeHost) (events : Operation → Option KnotSyncEvent)
    (causal : CausalIndex) (order : List Operation) (scope : Bytes32)
    (pending : List PendingCausalOperation) (undecodable : List KnotRejectedRelationV1)
    (projection : KnotDocumentProjection) (automatic : KnotAutomaticTextMerge)
    (ordered : CausalOrder causal order)
    (projected : projectEvents host order events causal scope pending undecodable = .ok projection)
    (listed : automatic ∈ projection.automaticMerges) :
    ∃ versions, (replayDocuments events causal order).current[automatic.id]? = some versions ∧
      automaticTextMerge host causal (replayDocuments events causal order).versionHistory
        automatic.id versions = some automatic ∧
      (MaximalBase events causal order automatic.id versions automatic.base ↔
        ¬ DeletedBetween events causal order automatic.id versions) := by
  obtain ⟨replay, folded, projected⟩ := bind_eq_ok_iff.mp projected
  obtain ⟨settled, settling, same⟩ := bind_eq_ok_iff.mp projected
  cases same
  obtain ⟨_, rfl⟩ := foldDocuments_eq_ok_iff.mp folded
  obtain ⟨versions, current, merged⟩ := merged_of_foldlM settling listed
  obtain ⟨operation, hash, shared⟩ := base_of_merge merged
  refine ⟨versions, Std.ExtTreeMap.mem_toList_iff_getElem?_eq_some.mp current, merged, ?_⟩
  rw [← hash]
  exact maximalBase_iff ordered shared

end

def recreatedHistory : List Operation :=
  [.sample 1 10, .sample 2 10, .sample 3 10, .sample 4 20]

def recreatedEvents (operation : Operation) : Option KnotSyncEvent :=
  if operation.hash = .filled 2 then some (.delete "note")
  else if operation.hash = .filled 4 then
    some (.put { VaultDocument.sample "note" with body := "new".toUTF8 })
  else some (.put (.sample "note"))

def recreatedCausal : CausalIndex := .ofPairs [(1, 2), (1, 3), (2, 3), (1, 4), (2, 4)]

def recreatedVersions (order : List Operation) : WriterVersions :=
  (replayDocuments recreatedEvents recreatedCausal order).current.getD "note" ∅

def recreatedMerge : KnotAutomaticTextMerge where
  id := "note"
  base := .filled 1
  supersedes := [.filled 3, .filled 4]
  document := { VaultDocument.sample "note" with body := "new".toUTF8 }

theorem recreated_current {order : List Operation} {versions : WriterVersions}
    (current : (replayDocuments recreatedEvents recreatedCausal order).current["note"]? =
      some versions) : versions = recreatedVersions order := by
  rw [recreatedVersions, Std.ExtTreeMap.getD_eq_getD_getElem?, current]
  rfl

def recreatedProjection (order : List Operation) : Except KnotSyncError KnotDocumentProjection :=
  projectEvents .sample order recreatedEvents recreatedCausal (.filled 0) [] []

/-- The two new texts are merged over the text that was deleted before either was written. -/
theorem merge_base_passes_over_a_deletion :
    CausalOrder recreatedCausal recreatedHistory ∧
      ∃ projection versions, recreatedProjection recreatedHistory = .ok projection ∧
        recreatedMerge ∈ projection.automaticMerges ∧
        (replayDocuments recreatedEvents recreatedCausal recreatedHistory).current["note"]? =
          some versions ∧
        ¬ MaximalBase recreatedEvents recreatedCausal recreatedHistory "note" versions
          recreatedMerge.base := by
  have ordered : CausalOrder recreatedCausal recreatedHistory :=
    ⟨by decide, ⟨by decide, by decide, by decide⟩⟩
  obtain ⟨projection, projected⟩ := isOk_iff.mp
    (show (recreatedProjection recreatedHistory).isOk = true by decide +kernel)
  have merges : (recreatedProjection recreatedHistory).toOption.map
      KnotDocumentProjection.automaticMerges = some [recreatedMerge] := by decide +kernel
  rw [projected, Except.toOption, Option.map_some, Option.some.injEq] at merges
  have present : ((replayDocuments recreatedEvents recreatedCausal
      recreatedHistory).current["note"]?).isSome = true := by decide +kernel
  obtain ⟨versions, current⟩ := Option.isSome_iff_exists.mp present
  have values : (recreatedVersions recreatedHistory).values.map KnotDocumentVersion.operation =
      [.filled 3, .filled 4] := by decide +kernel
  rw [← recreated_current current] at values
  have shared (operation : Operation) (member : operation ∈ recreatedHistory)
      (writes : writtenId recreatedEvents operation = some "note")
      (left : recreatedCausal.happensBefore operation.hash (.filled 3) = true)
      (right : recreatedCausal.happensBefore operation.hash (.filled 4) = true) :
      CommonAncestor recreatedEvents recreatedCausal recreatedHistory "note" versions operation := by
    refine ⟨member, writes, fun version held => ?_⟩
    have named := List.mem_map_of_mem (f := KnotDocumentVersion.operation) held
    rw [values, List.mem_cons, List.mem_singleton] at named
    rcases named with same | same <;> rw [same]
    · exact left
    · exact right
  refine ⟨ordered, projection, versions, projected, merges ▸ List.mem_singleton_self _, current, ?_⟩
  rintro ⟨base, hash, ancestor, maximal⟩
  have same : base = .sample 1 10 := ordered.identify base ancestor.member _ (by decide) hash
  rw [same] at maximal
  exact maximal (.sample 2 10) (shared _ (by decide) (by decide) (by decide) (by decide))
    (by decide)

/-- Without the deletion the text both new ones replace is the base. -/
theorem merge_base_is_maximal_iff_kept :
    ∃ versions, (replayDocuments recreatedEvents recreatedCausal
        [.sample 1 10, .sample 3 10, .sample 4 20]).current["note"]? = some versions ∧
      MaximalBase recreatedEvents recreatedCausal [.sample 1 10, .sample 3 10, .sample 4 20]
        "note" versions (.filled 1) := by
  obtain ⟨projection, projected⟩ := isOk_iff.mp
    (show (recreatedProjection [.sample 1 10, .sample 3 10, .sample 4 20]).isOk = true by
      decide +kernel)
  have merges : (recreatedProjection [.sample 1 10, .sample 3 10, .sample 4 20]).toOption.map
      KnotDocumentProjection.automaticMerges = some [recreatedMerge] := by decide +kernel
  rw [projected, Except.toOption, Option.map_some, Option.some.injEq] at merges
  obtain ⟨versions, current, _, whole⟩ := merge_base_is_maximal_iff .sample recreatedEvents
    recreatedCausal [.sample 1 10, .sample 3 10, .sample 4 20] (.filled 0) [] [] projection
    recreatedMerge ⟨by decide, ⟨by decide, by decide, by decide⟩⟩ projected
    (merges ▸ List.mem_singleton_self _)
  refine ⟨versions, current, whole.mpr ?_⟩
  rintro ⟨shared, deletion, _, ancestor, deletes, _⟩
  have carried : ∀ operation ∈ ([.sample 1 10, .sample 3 10, .sample 4 20] : List Operation),
      written recreatedEvents operation ≠ some ("note", none) := by decide
  exact carried deletion ancestor.member deletes

end KnotEditor
