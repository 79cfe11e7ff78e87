import KnotEditor.DjotMergeSymmetry
import KnotEditor.Library.Accumulation
import KnotEditor.Library.KeyedCollection
import KnotEditor.Sync.Projection

/-! How the current versions of a document id reach the projection: alone, merged, or contested. -/

namespace KnotEditor

open Fallible KeyedCollections

def Sole (versions : WriterVersions) : Prop := ∃ version, versions.values = [version]

section

variable {host : MergeHost} {causal : CausalIndex} {history : List VersionRecord} {id : String}
variable {versions : WriterVersions} {settled next : SettledDocuments}

theorem automaticTextMerge_spec {automatic : KnotAutomaticTextMerge}
    (merged : automaticTextMerge host causal history id versions = some automatic) :
    automatic.id = id ∧ ∃ left right leftDocument, versions.values = [left, right] ∧
      left.document = some leftDocument ∧ automatic.document.id = leftDocument.id ∧
      left.operation ∈ automatic.supersedes ∧ right.operation ∈ automatic.supersedes := by
  unfold automaticTextMerge at merged
  split at merged
  next left right values =>
    simp only [Option.bind_eq_bind, Option.bind_eq_some_iff] at merged
    obtain ⟨leftDocument, leftRead, rightDocument, rightRead, ancestor, _, document, made, result⟩ :=
      merged
    cases result
    obtain ⟨ids, _, _, _, _, _, _, _, _, _, _, _, _, _, rfl⟩ :=
      (mergeTextDocument_eq_some_iff host _ _ _ _).mp made
    refine ⟨rfl, left, right, leftDocument, values, leftRead, ids.1, ?_, ?_⟩
    · exact (List.mem_insertionSort _).mpr (by simp)
    · exact (List.mem_insertionSort _).mpr (by simp)
  next => cases merged

theorem settle_eq_ok_iff :
    settled.settle host causal history id versions = .ok next ↔
      (∃ version, versions.values = [version] ∧ next = { settled with
        documents := settled.documents ++ version.document.toList
        documentHeads := settled.documentHeads.insert id version.operation }) ∨
      ¬ Sole versions ∧
        ((∃ automatic head, automaticTextMerge host causal history id versions = some automatic ∧
          automaticTextMergeHead host automatic.base automatic.supersedes automatic.document =
            .ok head ∧
          next = { settled with
            documents := settled.documents ++ [automatic.document]
            automaticMerges := settled.automaticMerges ++ [automatic]
            documentHeads := settled.documentHeads.insert id head }) ∨
        (automaticTextMerge host causal history id versions = none ∧ next = { settled with
          conflicts := settled.conflicts ++ [{ id, versions := versions.values }] })) := by
  unfold SettledDocuments.settle Sole
  split
  next version values =>
    simp only [values, List.cons.injEq, and_true, exists_eq_left', exists_eq', not_true_eq_false,
      false_and, or_false, Except.ok.injEq, eq_comm]
  next values several =>
    have many : ¬ ∃ version, versions.values = [version] := by
      rintro ⟨version, single⟩
      exact several version single
    cases merged : automaticTextMerge host causal history id versions with
    | none =>
      simp only [many, not_false_eq_true, true_and, reduceCtorEq, false_and, exists_false,
        false_or, Except.ok.injEq]
      constructor
      · rintro rfl
        exact .inr rfl
      · rintro (⟨version, single, _⟩ | rfl)
        · exact absurd ⟨version, single⟩ many
        · rfl
    | some automatic =>
      simp only [bind_eq_ok_iff, many, not_false_eq_true, true_and, Option.some.injEq,
        reduceCtorEq, false_and, or_false]
      constructor
      · rintro ⟨head, encoded, made⟩
        cases made
        exact .inr ⟨automatic, head, rfl, encoded, rfl⟩
      · rintro (⟨version, single, _⟩ | ⟨_, head, rfl, encoded, rfl⟩)
        · exact absurd ⟨version, single⟩ many
        · exact ⟨head, encoded, rfl⟩

inductive Settles (host : MergeHost) (causal : CausalIndex) (history : List VersionRecord)
    (id : String) (versions : WriterVersions) (settled : SettledDocuments) : Prop
  | sole (version : KnotDocumentVersion) (values : versions.values = [version])
      (shown : ∀ document, version.document = some document → document ∈ settled.documents)
      (head : settled.documentHeads[id]? = some version.operation)
  | merged (automatic : KnotAutomaticTextMerge) (several : ¬ Sole versions)
      (merge : automaticTextMerge host causal history id versions = some automatic)
      (shown : automatic.document ∈ settled.documents)
      (listed : automatic ∈ settled.automaticMerges)
  | contested (several : ¬ Sole versions)
      (declined : automaticTextMerge host causal history id versions = none)
      (listed : { id, versions := versions.values } ∈ settled.conflicts)

def Shows (host : MergeHost) (causal : CausalIndex) (history : List VersionRecord)
    (id : String) (versions : WriterVersions) (document : VaultDocument) : Prop :=
  (∃ version, versions.values = [version] ∧ version.document = some document) ∨
    ¬ Sole versions ∧ ∃ automatic,
      automaticTextMerge host causal history id versions = some automatic ∧
        automatic.document = document

structure Settlement (host : MergeHost) (causal : CausalIndex) (history : List VersionRecord)
    (entries : List (String × WriterVersions)) (settled : SettledDocuments) : Prop where
  covers : ∀ entry ∈ entries, Settles host causal history entry.1 entry.2 settled
  heads : ∀ (id : String) (head : Bytes32), settled.documentHeads[id]? = some head →
    ∃ entry ∈ entries, entry.1 = id
  documents : ∀ document ∈ settled.documents, ∃ entry ∈ entries,
    Shows host causal history entry.1 entry.2 document
  conflicts : ∀ conflict ∈ settled.conflicts, ∃ entry ∈ entries, entry.1 = conflict.id ∧
    entry.2.values = conflict.versions ∧ ¬ Sole entry.2
  merges : ∀ automatic ∈ settled.automaticMerges, ∃ entry ∈ entries, entry.1 = automatic.id ∧
    ¬ Sole entry.2

theorem settle_keeps (settling : settled.settle host causal history id versions = .ok next) :
    (∀ document ∈ settled.documents, document ∈ next.documents) ∧
      (∀ automatic ∈ settled.automaticMerges, automatic ∈ next.automaticMerges) ∧
      (∀ conflict ∈ settled.conflicts, conflict ∈ next.conflicts) ∧
      ∀ other, id ≠ other → next.documentHeads[other]? = settled.documentHeads[other]? := by
  rcases settle_eq_ok_iff.mp settling with ⟨version, _, rfl⟩ |
    ⟨_, ⟨automatic, head, _, _, rfl⟩ | ⟨_, rfl⟩⟩
  · refine ⟨fun document member => ?_, fun _ member => member, fun _ member => member, ?_⟩
    · exact List.mem_append_left _ member
    · exact fun other distinct => getElem?_insert_of_ne _ distinct _
  · refine ⟨fun document member => ?_, fun found member => ?_, fun _ member => member, ?_⟩
    · exact List.mem_append_left _ member
    · exact List.mem_append_left _ member
    · exact fun other distinct => getElem?_insert_of_ne _ distinct _
  · refine ⟨fun _ member => member, fun _ member => member, fun conflict member => ?_, ?_⟩
    · exact List.mem_append_left _ member
    · exact fun _ _ => rfl

theorem settle_adds (settling : settled.settle host causal history id versions = .ok next) :
    (∀ document ∈ next.documents,
        document ∈ settled.documents ∨ Shows host causal history id versions document) ∧
      (∀ automatic ∈ next.automaticMerges,
        automatic ∈ settled.automaticMerges ∨ id = automatic.id ∧ ¬ Sole versions) ∧
      ∀ conflict ∈ next.conflicts, conflict ∈ settled.conflicts ∨
        id = conflict.id ∧ versions.values = conflict.versions ∧ ¬ Sole versions := by
  rcases settle_eq_ok_iff.mp settling with ⟨version, values, rfl⟩ |
    ⟨several, ⟨automatic, head, merge, _, rfl⟩ | ⟨_, rfl⟩⟩
  · refine ⟨fun document member => ?_, fun _ => .inl, fun _ => .inl⟩
    refine (List.mem_append.mp member).imp_right fun added => .inl ⟨version, values, ?_⟩
    simpa using added
  · refine ⟨fun document member => ?_, fun found member => ?_, fun _ => .inl⟩
    · refine (List.mem_append.mp member).imp_right fun added => .inr ⟨several, automatic, merge, ?_⟩
      exact (List.mem_singleton.mp added).symm
    · refine (List.mem_append.mp member).imp_right fun added => ⟨?_, several⟩
      rw [List.mem_singleton.mp added]
      exact (automaticTextMerge_spec merge).1.symm
  · refine ⟨fun _ => .inl, fun _ => .inl, fun conflict member => ?_⟩
    refine (List.mem_append.mp member).imp_right fun added => ?_
    rw [List.mem_singleton.mp added]
    exact ⟨rfl, rfl, several⟩

theorem Settles.settle {other : String} {others : WriterVersions}
    (settles : Settles host causal history other others settled) (distinct : id ≠ other)
    (settling : settled.settle host causal history id versions = .ok next) :
    Settles host causal history other others next := by
  obtain ⟨documents, merges, conflicts, heads⟩ := settle_keeps settling
  cases settles with
  | sole version values shown head =>
    exact .sole version values (fun document found => documents _ (shown document found))
      ((heads other distinct).trans head)
  | merged automatic several merge shown listed =>
    exact .merged automatic several merge (documents _ shown) (merges _ listed)
  | contested several declined listed => exact .contested several declined (conflicts _ listed)

theorem settles_self (settling : settled.settle host causal history id versions = .ok next) :
    Settles host causal history id versions next := by
  rcases settle_eq_ok_iff.mp settling with ⟨version, values, rfl⟩ |
    ⟨several, ⟨automatic, head, merge, _, rfl⟩ | ⟨declined, rfl⟩⟩
  · refine .sole version values (fun document found => ?_) Std.ExtTreeMap.getElem?_insert_self
    simp [found]
  · exact .merged automatic several merge (by simp) (by simp)
  · exact .contested several declined (by simp)

theorem Settlement.step {entries : List (String × WriterVersions)}
    (settlement : Settlement host causal history entries settled)
    (fresh : ∀ entry ∈ entries, id ≠ entry.1)
    (settling : settled.settle host causal history id versions = .ok next) :
    Settlement host causal history (entries ++ [(id, versions)]) next := by
  obtain ⟨_, _, _, heads⟩ := settle_keeps settling
  obtain ⟨documents, merges, conflicts⟩ := settle_adds settling
  have newest : (id, versions) ∈ entries ++ [(id, versions)] := by simp
  refine ⟨?_, ?_, ?_, ?_, ?_⟩
  · intro entry member
    rw [List.mem_append, List.mem_singleton] at member
    rcases member with earlier | rfl
    · exact (settlement.covers entry earlier).settle (fresh entry earlier) settling
    · exact settles_self settling
  · intro query head found
    by_cases same : id = query
    · exact ⟨(id, versions), newest, same⟩
    · rw [heads query same] at found
      obtain ⟨entry, member, named⟩ := settlement.heads query head found
      exact ⟨entry, List.mem_append_left _ member, named⟩
  · intro document member
    rcases documents document member with earlier | shows
    · obtain ⟨entry, found, rest⟩ := settlement.documents document earlier
      exact ⟨entry, List.mem_append_left _ found, rest⟩
    · exact ⟨(id, versions), newest, shows⟩
  · intro conflict member
    rcases conflicts conflict member with earlier | added
    · obtain ⟨entry, found, rest⟩ := settlement.conflicts conflict earlier
      exact ⟨entry, List.mem_append_left _ found, rest⟩
    · exact ⟨(id, versions), newest, added⟩
  · intro automatic member
    rcases merges automatic member with earlier | added
    · obtain ⟨entry, found, rest⟩ := settlement.merges automatic earlier
      exact ⟨entry, List.mem_append_left _ found, rest⟩
    · exact ⟨(id, versions), newest, added⟩

theorem settlement_of_foldlM {entries : List (String × WriterVersions)}
    (distinct : (entries.map Prod.fst).Nodup)
    (settling : entries.foldlM (fun (settled : SettledDocuments) entry =>
      settled.settle host causal history entry.1 entry.2) {} = .ok settled) :
    Settlement host causal history entries settled := by
  induction entries using List.reverseRecOn generalizing settled with
  | nil =>
    cases settling
    constructor <;> simp
  | append_singleton earlier last ih =>
    obtain ⟨middle, before, final⟩ := foldlM_append_singleton_eq_ok_iff.mp settling
    rw [List.map_append, List.nodup_append] at distinct
    refine (ih distinct.1 before).step (fun entry member => ?_) final
    exact (distinct.2.2 _ (List.mem_map_of_mem member) _ (by simp)).symm

theorem settlement_of_settleDocuments {replay : DocumentReplay}
    (settling : settleDocuments host causal replay = .ok settled) :
    Settlement host causal replay.versionHistory replay.current.toList settled := by
  refine settlement_of_foldlM ?_ settling
  rw [List.Nodup, List.pairwise_map]
  refine Std.ExtTreeMap.distinct_keys_toList.imp fun different same => different ?_
  exact Std.LawfulEqOrd.compare_eq_iff_eq.mpr same

theorem settles_of_current {replay : DocumentReplay}
    (settling : settleDocuments host causal replay = .ok settled)
    (found : replay.current[id]? = some versions) :
    Settles host causal replay.versionHistory id versions settled :=
  (settlement_of_settleDocuments settling).covers (id, versions)
    (Std.ExtTreeMap.mem_toList_iff_getElem?_eq_some.mpr found)

theorem settleDocuments_total {replay : DocumentReplay}
    (encodes : ∀ base supersedes document, ∃ bytes,
      host.encodeCbor base supersedes document = .ok bytes) :
    ∃ settled, settleDocuments host causal replay = .ok settled := by
  unfold settleDocuments
  induction replay.current.toList using List.reverseRecOn with
  | nil => exact ⟨{}, rfl⟩
  | append_singleton earlier last ih =>
    obtain ⟨middle, before⟩ := ih
    have settles : ∃ next, middle.settle host causal replay.versionHistory last.1 last.2 =
        .ok next := by
      unfold SettledDocuments.settle
      split
      next => exact ⟨_, rfl⟩
      next =>
        split
        next automatic merged =>
          obtain ⟨bytes, encoded⟩ := encodes automatic.base automatic.supersedes
            automatic.document
          unfold automaticTextMergeHead
          rw [encoded]
          exact ⟨_, rfl⟩
        next => exact ⟨_, rfl⟩
    obtain ⟨next, final⟩ := settles
    exact ⟨next, foldlM_append_singleton_eq_ok_iff.mpr ⟨middle, before, final⟩⟩

end

end KnotEditor
