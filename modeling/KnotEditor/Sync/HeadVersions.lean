import KnotEditor.Sync.Projectable
import KnotEditor.Sync.Standing

/-! What a document head stands for: the version its operation wrote, or the merge it was hashed
from. -/

namespace KnotEditor

open Fallible KeyedCollections

inductive StandsFor (host : MergeHost) (events : Operation → Option KnotSyncEvent)
    (causal : CausalIndex) (order : List Operation) (id : String) (head : Bytes32)
    (document : VaultDocument) : Prop
  | operation (operation : Operation) (member : operation ∈ order)
      (named : operation.hash = head) (wrote : written events operation = some (id, some document))
  | merge (versions : WriterVersions) (automatic : KnotAutomaticTextMerge)
      (current : (replayDocuments events causal order).current[id]? = some versions)
      (merged : automaticTextMerge host causal (replayDocuments events causal order).versionHistory
        id versions = some automatic)
      (encoded : automaticTextMergeHead host automatic.base automatic.supersedes
        automatic.document = .ok head)
      (same : automatic.document = document)

/-- The operations a head names: its own, or the versions its automatic merge combines. -/
inductive HeadNames (host : MergeHost) (automaticMerges : List KnotAutomaticTextMerge)
    (id : String) (head version : Bytes32) : Prop
  | own (unmerged : ∀ automatic ∈ automaticMerges, automatic.id ≠ id) (same : version = head)
  | combined (automatic : KnotAutomaticTextMerge) (listed : automatic ∈ automaticMerges)
      (same : automatic.id = id)
      (encoded : automaticTextMergeHead host automatic.base automatic.supersedes
        automatic.document = .ok head)
      (side : version ∈ automatic.supersedes)

section

variable {host : MergeHost} {causal : CausalIndex} {history : List VersionRecord} {id : String}
variable {versions : WriterVersions} {settled next : SettledDocuments}

def MergeHeaded (host : MergeHost) (causal : CausalIndex) (history : List VersionRecord)
    (id : String) (versions : WriterVersions) (settled : SettledDocuments) : Prop :=
  ¬ Sole versions → ∀ automatic,
    automaticTextMerge host causal history id versions = some automatic →
      ∃ head, automaticTextMergeHead host automatic.base automatic.supersedes
        automatic.document = .ok head ∧ settled.documentHeads[id]? = some head

theorem mergeHeaded_self (settling : settled.settle host causal history id versions = .ok next) :
    MergeHeaded host causal history id versions next := by
  intro several automatic merged
  rcases settle_eq_ok_iff.mp settling with ⟨version, values, _⟩ |
    ⟨_, ⟨found, head, merge, encoded, rfl⟩ | ⟨declined, _⟩⟩
  · exact absurd ⟨version, values⟩ several
  · rw [merge] at merged
    cases merged
    exact ⟨head, encoded, Std.ExtTreeMap.getElem?_insert_self⟩
  · rw [declined] at merged
    cases merged

theorem mergeHeaded_of_foldlM {entries : List (String × WriterVersions)}
    (distinct : (entries.map Prod.fst).Nodup)
    (settling : entries.foldlM (fun (settled : SettledDocuments) entry =>
      settled.settle host causal history entry.1 entry.2) {} = .ok settled) :
    ∀ entry ∈ entries, MergeHeaded host causal history entry.1 entry.2 settled := by
  induction entries using List.reverseRecOn generalizing settled with
  | nil =>
    intro entry member
    cases member
  | append_singleton earlier last ih =>
    obtain ⟨middle, before, final⟩ := foldlM_append_singleton_eq_ok_iff.mp settling
    rw [List.map_append, List.nodup_append] at distinct
    intro entry member
    rw [List.mem_append, List.mem_singleton] at member
    rcases member with held | rfl
    · intro several automatic merged
      obtain ⟨head, encoded, found⟩ := ih distinct.1 before entry held several automatic merged
      have other : last.1 ≠ entry.1 :=
        (distinct.2.2 _ (List.mem_map_of_mem held) _ (by simp)).symm
      exact ⟨head, encoded, ((settle_keeps final).2.2.2 entry.1 other).trans found⟩
    · exact mergeHeaded_self final

theorem mergeHeaded_of_current {replay : DocumentReplay}
    (settling : settleDocuments host causal replay = .ok settled)
    (found : replay.current[id]? = some versions) :
    MergeHeaded host causal replay.versionHistory id versions settled := by
  refine mergeHeaded_of_foldlM ?_ settling (id, versions)
    (Std.ExtTreeMap.mem_toList_iff_getElem?_eq_some.mpr found)
  rw [List.Nodup, List.pairwise_map]
  refine Std.ExtTreeMap.distinct_keys_toList.imp fun different same => different ?_
  exact Std.LawfulEqOrd.compare_eq_iff_eq.mpr same

theorem supersedes_sides {automatic : KnotAutomaticTextMerge} {version : Bytes32}
    (merged : automaticTextMerge host causal history id versions = some automatic)
    (side : version ∈ automatic.supersedes) :
    ∃ held ∈ versions.values, held.operation = version := by
  unfold automaticTextMerge at merged
  split at merged
  next left right values =>
    simp only [Option.bind_eq_bind, Option.bind_eq_some_iff] at merged
    obtain ⟨_, _, _, _, _, _, _, _, result⟩ := merged
    cases result
    rw [List.mem_insertionSort, List.mem_cons, List.mem_singleton] at side
    rw [values]
    rcases side with rfl | rfl
    · exact ⟨left, by simp, rfl⟩
    · exact ⟨right, by simp, rfl⟩
  next => cases merged

theorem merged_of_foldlM {entries : List (String × WriterVersions)}
    {automatic : KnotAutomaticTextMerge}
    (settling : entries.foldlM (fun (settled : SettledDocuments) entry =>
      settled.settle host causal history entry.1 entry.2) {} = .ok settled)
    (listed : automatic ∈ settled.automaticMerges) :
    ∃ versions, (automatic.id, versions) ∈ entries ∧
      automaticTextMerge host causal history automatic.id versions = some automatic := by
  induction entries using List.reverseRecOn generalizing settled with
  | nil =>
    cases settling
    cases listed
  | append_singleton earlier last ih =>
    obtain ⟨middle, before, final⟩ := foldlM_append_singleton_eq_ok_iff.mp settling
    have older (held : automatic ∈ middle.automaticMerges) : ∃ versions,
        (automatic.id, versions) ∈ earlier ++ [last] ∧
          automaticTextMerge host causal history automatic.id versions = some automatic := by
      obtain ⟨versions, found, merges⟩ := ih before held
      exact ⟨versions, List.mem_append_left _ found, merges⟩
    rcases settle_eq_ok_iff.mp final with ⟨_, _, rfl⟩ |
      ⟨_, ⟨made, _, merged, _, rfl⟩ | ⟨_, rfl⟩⟩
    · exact older listed
    · rcases List.mem_append.mp listed with held | newest
      · exact older held
      · rw [List.mem_singleton] at newest
        subst newest
        have same := (automaticTextMerge_spec merged).1
        rw [same]
        exact ⟨last.2, by simp, merged⟩
    · exact older listed

theorem headed_of_foldlM {entries : List (String × WriterVersions)} {head : Bytes32}
    (settling : entries.foldlM (fun (settled : SettledDocuments) entry =>
      settled.settle host causal history entry.1 entry.2) {} = .ok settled)
    (headed : settled.documentHeads[id]? = some head) :
    ∃ versions, (id, versions) ∈ entries ∧
      (Sole versions ∨ automaticTextMerge host causal history id versions ≠ none) := by
  induction entries using List.reverseRecOn generalizing settled with
  | nil =>
    cases settling
    simp at headed
  | append_singleton earlier last ih =>
    obtain ⟨middle, before, final⟩ := foldlM_append_singleton_eq_ok_iff.mp settling
    have newest : (last.1, last.2) ∈ earlier ++ [last] := by simp
    have older (held : middle.documentHeads[id]? = some head) : ∃ versions,
        (id, versions) ∈ earlier ++ [last] ∧
          (Sole versions ∨ automaticTextMerge host causal history id versions ≠ none) := by
      obtain ⟨versions, listed, settles⟩ := ih before held
      exact ⟨versions, List.mem_append_left _ listed, settles⟩
    by_cases same : last.1 = id
    · subst same
      rcases settle_eq_ok_iff.mp final with ⟨version, values, _⟩ |
        ⟨_, ⟨automatic, merged, made, _⟩ | ⟨_, rfl⟩⟩
      · exact ⟨last.2, newest, .inl ⟨version, values⟩⟩
      · refine ⟨last.2, newest, .inr ?_⟩
        rw [made]
        exact Option.some_ne_none automatic
      · exact older headed
    · rw [(settle_keeps final).2.2.2 id same] at headed
      exact older headed

end

section

variable {events : Operation → Option KnotSyncEvent} {causal : CausalIndex}
variable {order : List Operation} {id : String} {operation : Operation}
variable {versions : WriterVersions} {document : VaultDocument}

theorem written_of_current {version : KnotDocumentVersion}
    (current : (replayDocuments events causal order).current[id]? = some versions)
    (member : version ∈ versions.values) : ∃ operation ∈ order,
      writtenId events operation = some id ∧ writtenVersion events operation = version := by
  obtain ⟨writer, found⟩ := (mem_values_iff versions version).mp member
  have held := @replayDocuments_held events causal order id writer
  rw [DocumentReplay.held, Std.ExtTreeMap.getD_eq_getD_getElem?, current, Option.getD_some, found]
    at held
  obtain ⟨operation, slot, made⟩ := Option.map_eq_some_iff.mp held.symm
  obtain ⟨front, back, split, _, _⟩ := (SlotRegisters.run_eq_some_iff writer operation).mp slot
  have writes : operation ∈ order.filter (writesTo events id) := by simp [split]
  rw [List.mem_filter, writesTo, beq_iff_eq] at writes
  exact ⟨operation, writes.1, writes.2, made⟩

theorem written_of_version (writes : writtenId events operation = some id)
    (shown : (writtenVersion events operation).document = some document) :
    written events operation = some (id, some document) := by
  obtain ⟨write, wrote, same⟩ := Option.map_eq_some_iff.mp writes
  rw [writtenVersion, wrote, Option.bind_some] at shown
  rw [wrote]
  exact congrArg some (Prod.ext same shown)

theorem written_id_of_turns (resolves : ResolvesInTurn events causal order)
    (member : operation ∈ order) (wrote : written events operation = some (id, some document)) :
    document.id = id := by
  obtain ⟨event, read, made⟩ := Option.bind_eq_some_iff.mp wrote
  obtain ⟨front, back, split⟩ := List.append_of_mem member
  cases event <;> cases made
  · rfl
  · exact (resolves front operation back _ _ _ split read).chosen document rfl

theorem shows_id {host : MergeHost} (resolves : ResolvesInTurn events causal order)
    (listed : (id, versions) ∈ (replayDocuments events causal order).current.toList)
    (shows : Shows host causal (replayDocuments events causal order).versionHistory id versions
      document) : document.id = id := by
  have current := Std.ExtTreeMap.mem_toList_iff_getElem?_eq_some.mp listed
  rcases shows with ⟨version, values, shown⟩ | ⟨_, automatic, merged, rfl⟩
  · have held : version ∈ versions.values := by simp [values]
    obtain ⟨operation, found, writes, made⟩ := written_of_current current held
    rw [← made] at shown
    exact written_id_of_turns resolves found (written_of_version writes shown)
  · obtain ⟨_, left, right, leftDocument, values, leftRead, same, _⟩ := automaticTextMerge_spec merged
    have held : left ∈ versions.values := by simp [values]
    obtain ⟨operation, found, writes, made⟩ := written_of_current current held
    rw [← made] at leftRead
    exact same.trans (written_id_of_turns resolves found (written_of_version writes leftRead))

theorem stands_for_of_settled {host : MergeHost} {settled : SettledDocuments}
    (resolves : ResolvesInTurn events causal order)
    (settling : settleDocuments host causal (replayDocuments events causal order) = .ok settled)
    (member : document ∈ settled.documents) : ∃ head,
      settled.documentHeads[document.id]? = some head ∧
        StandsFor host events causal order document.id head document := by
  obtain ⟨⟨id, versions⟩, listed, shows⟩ :=
    (settlement_of_settleDocuments settling).documents document member
  have named : document.id = id := shows_id resolves listed shows
  have current := Std.ExtTreeMap.mem_toList_iff_getElem?_eq_some.mp listed
  subst named
  rcases shows with ⟨version, values, shown⟩ | ⟨several, automatic, merged, chosen⟩
  · have held : version ∈ versions.values := by simp [values]
    obtain ⟨operation, found, writes, made⟩ := written_of_current current held
    rw [← made] at shown
    have wrote := written_of_version writes shown
    cases settles_of_current settling current with
    | sole other others _ head =>
      rw [values] at others
      cases others
      refine ⟨version.operation, head, .operation operation found ?_ wrote⟩
      rw [← made]
      rfl
    | merged _ several => exact absurd ⟨version, values⟩ several
    | contested several => exact absurd ⟨version, values⟩ several
  · obtain ⟨head, encoded, heads⟩ :=
      mergeHeaded_of_current settling current several automatic merged
    exact ⟨head, heads, .merge versions automatic current merged encoded chosen⟩

theorem current_of_lone_write (alone : order.filter (writesTo events id) = [operation]) :
    ∃ versions, (replayDocuments events causal order).current[id]? = some versions ∧
      versions.values = [writtenVersion events operation] := by
  have writes : (replayDocuments events causal order).current[id]?.isSome = true := by
    have member : operation ∈ order.filter (writesTo events id) := by simp [alone]
    rw [replayDocuments_current_isSome, List.any_eq_true]
    exact ⟨operation, List.mem_filter.mp member⟩
  obtain ⟨versions, current⟩ := Option.isSome_iff_exists.mp writes
  have slots (writer : Bytes32) : versions[writer]? =
      if operation.author = writer then some (writtenVersion events operation) else none := by
    have held := @replayDocuments_held events causal order id writer
    rw [DocumentReplay.held, Std.ExtTreeMap.getD_eq_getD_getElem?, current, Option.getD_some,
      slotsOf, alone] at held
    rw [held]
    change (if operation.author = writer then some operation else none).map _ = _
    split <;> rfl
  refine ⟨versions, current, (values_eq_singleton_iff _ _).mpr ⟨operation.author, ?_, ?_⟩⟩
  · rw [slots, if_pos rfl]
  · intro writer version held
    rw [slots] at held
    split at held
    next same => exact same.symm
    next => cases held

theorem shown_of_lone_write {host : MergeHost} {settled : SettledDocuments}
    (resolves : ResolvesInTurn events causal order)
    (settling : settleDocuments host causal (replayDocuments events causal order) = .ok settled)
    (alone : order.filter (writesTo events document.id) = [operation])
    (wrote : written events operation = some (document.id, some document)) :
    document ∈ settled.documents ∧
      ∀ other ∈ settled.documents, other.id = document.id → other = document := by
  obtain ⟨versions, current, values⟩ := @current_of_lone_write events causal _ _ _ alone
  have version : (writtenVersion events operation).document = some document := by
    rw [writtenVersion_eq wrote]
  constructor
  · cases settles_of_current settling current with
    | sole found others shown _ =>
      rw [values] at others
      cases others
      exact shown document version
    | merged _ several => exact absurd ⟨_, values⟩ several
    | contested several => exact absurd ⟨_, values⟩ several
  · intro other member same
    obtain ⟨⟨id, others⟩, listed, shows⟩ :=
      (settlement_of_settleDocuments settling).documents other member
    have named : other.id = id := shows_id resolves listed shows
    have read := Std.ExtTreeMap.mem_toList_iff_getElem?_eq_some.mp listed
    rw [← named, same, current] at read
    cases read
    rcases shows with ⟨found, sole, shown⟩ | ⟨several, _⟩
    · rw [values] at sole
      cases sole
      rw [version] at shown
      exact (Option.some.inj shown).symm
    · exact absurd ⟨_, values⟩ several

theorem names_standing {host : MergeHost} {settled : SettledDocuments} {head : Bytes32}
    (ordered : CausalOrder causal order) (chained : SingleWriter causal order)
    (resolves : ResolvesAdmissible events causal order)
    (settling : settleDocuments host causal (replayDocuments events causal order) = .ok settled)
    (headed : settled.documentHeads[id]? = some head)
    (standing : Standing events causal order id operation) :
    HeadNames host settled.automaticMerges id head operation.hash := by
  obtain ⟨versions, current⟩ := current_of_standing standing
  have held := (current_getElem?_iff ordered chained resolves current operation.author
    (writtenVersion events operation)).mpr ⟨operation, standing, rfl, rfl⟩
  cases settles_of_current settling current with
  | sole version values shown own =>
    rw [own] at headed
    cases headed
    obtain ⟨only, alone, made⟩ :=
      (current_sole_iff ordered chained resolves current version).mp values
    rw [← made, alone.alone operation standing]
    refine .own (fun automatic listed same => ?_) rfl
    obtain ⟨⟨other, others⟩, member, named, several⟩ :=
      (settlement_of_settleDocuments settling).merges automatic listed
    have target : other = id := named.trans same
    rw [Std.ExtTreeMap.mem_toList_iff_getElem?_eq_some, target, current] at member
    cases member
    exact several ⟨version, values⟩
  | merged automatic several merge shown listed =>
    obtain ⟨named, encoded, found⟩ :=
      mergeHeaded_of_current settling current several automatic merge
    rw [found] at headed
    cases headed
    obtain ⟨same, left, right, _, values, _, _, leftNamed, rightNamed⟩ :=
      automaticTextMerge_spec merge
    have member : writtenVersion events operation ∈ versions.values :=
      (mem_values_iff versions _).mpr ⟨operation.author, held⟩
    rw [values, List.mem_cons, List.mem_singleton] at member
    refine .combined automatic listed same encoded ?_
    rcases member with isLeft | isRight
    · have own : operation.hash = left.operation :=
        congrArg KnotDocumentVersion.operation isLeft
      rw [own]
      exact leftNamed
    · have own : operation.hash = right.operation :=
        congrArg KnotDocumentVersion.operation isRight
      rw [own]
      exact rightNamed
  | contested several declined =>
    obtain ⟨others, listed, settles⟩ := headed_of_foldlM settling headed
    rw [Std.ExtTreeMap.mem_toList_iff_getElem?_eq_some, current] at listed
    cases listed
    rcases settles with sole | merges
    · exact absurd sole several
    · exact absurd declined merges

theorem named_mem {host : MergeHost} {settled : SettledDocuments} {head version : Bytes32}
    (settling : settleDocuments host causal (replayDocuments events causal order) = .ok settled)
    (headed : settled.documentHeads[id]? = some head)
    (named : HeadNames host settled.automaticMerges id head version) :
    ∃ held ∈ order, held.hash = version := by
  cases named with
  | own unmerged same =>
    subst same
    obtain ⟨versions, listed, settles⟩ := headed_of_foldlM settling headed
    have current := Std.ExtTreeMap.mem_toList_iff_getElem?_eq_some.mp listed
    cases settles_of_current settling current with
    | sole found values shown own =>
      rw [own] at headed
      cases headed
      have held : found ∈ versions.values := by simp [values]
      obtain ⟨operation, member, _, made⟩ := written_of_current current held
      exact ⟨operation, member, congrArg KnotDocumentVersion.operation made⟩
    | merged automatic several merge shown found =>
      exact absurd (automaticTextMerge_spec merge).1 (unmerged automatic found)
    | contested several declined =>
      rcases settles with sole | merges
      · exact absurd sole several
      · exact absurd declined merges
  | combined automatic listed same encoded side =>
    obtain ⟨versions, found, merged⟩ := merged_of_foldlM settling listed
    have current := Std.ExtTreeMap.mem_toList_iff_getElem?_eq_some.mp found
    obtain ⟨held, member, named⟩ := supersedes_sides merged side
    obtain ⟨operation, present, _, made⟩ := written_of_current current member
    exact ⟨operation, present, (congrArg KnotDocumentVersion.operation made).trans named⟩

end

namespace KnotSyncStore

def StandsFor (store : KnotSyncStore) (host : SyncHost) (cipher : KnotSyncCipher) (id : String)
    (head : Bytes32) (document : VaultDocument) : Prop :=
  ∃ order pending, store.closedOperations host = .ok (order, pending) ∧
    KnotEditor.StandsFor host.merge (readableEvents host cipher) (store.causal host) order id head
      document

variable {store : KnotSyncStore} {host : SyncHost} {cipher : KnotSyncCipher}
variable {projection : KnotDocumentProjection} {document : VaultDocument}

theorem stands_for_of_projection
    (projected : store.projectionWithCipher host cipher = .ok projection)
    (member : document ∈ projection.documents) : ∃ head,
      projection.documentHeads[document.id]? = some head ∧
        store.StandsFor host cipher document.id head document := by
  obtain ⟨order, pending, closed, _⟩ := closed_of_projection projected
  rw [projectionWithCipher, projection_ok_iff closed] at projected
  obtain ⟨_, _, folded⟩ := projected
  obtain ⟨turns, settled, settling, rfl⟩ := projectEvents_ok_iff.mp folded
  obtain ⟨head, heads, stands⟩ := stands_for_of_settled turns settling member
  exact ⟨head, heads, order, pending, closed, stands⟩

end KnotSyncStore

end KnotEditor
