import KnotEditor.Sync.DocumentReplay
import KnotEditor.Sync.Settlement

/-! Which document versions a replay can lose. A put or a delete replaces what it observes and a
resolution what it names, but every write also takes its writer's slot. -/

namespace KnotEditor

open Accumulations Fallible KeyedCollections

section

variable (events : Operation → Option KnotSyncEvent) (causal : CausalIndex)

def CausallyFollowed (order : List Operation) (id : String) (version : Bytes32) : Prop :=
  ∃ later ∈ order, causal.happensBefore version later.hash = true ∧
    ((∃ document, events later = some (.put document) ∧ document.id = id) ∨
      events later = some (.delete id))

def NamedByResolution (order : List Operation) (id : String) (version : Bytes32) : Prop :=
  ∃ resolution ∈ order, ∃ supersedes document,
    events resolution = some (.resolve id supersedes document) ∧ version ∈ supersedes

def NothingLost (order : List Operation) (replay : DocumentReplay) : Prop :=
  ∀ operation ∈ order, ∀ id, writtenId events operation = some id →
    (∀ writer, replay.held id writer ≠ some (writtenVersion events operation)) →
      CausallyFollowed events causal order id operation.hash ∨
        NamedByResolution events order id operation.hash

/-- How a version shows in a projection: as the document or its tombstone, as a side of the merge
that stands for it, or among the versions of a conflict. -/
inductive Visible (settled : SettledDocuments) (id : String) (version : KnotDocumentVersion) : Prop
  | alone (head : settled.documentHeads[id]? = some version.operation)
      (shown : ∀ document, version.document = some document → document ∈ settled.documents)
  | merged (automatic : KnotAutomaticTextMerge) (listed : automatic ∈ settled.automaticMerges)
      (same : automatic.id = id) (side : version.operation ∈ automatic.supersedes)
      (shown : automatic.document ∈ settled.documents)
  | contested (conflict : KnotDocumentConflict) (listed : conflict ∈ settled.conflicts)
      (same : conflict.id = id) (held : version ∈ conflict.versions)

def OthersVisible (order : List Operation) (replay : DocumentReplay) : Prop :=
  ∀ (host : MergeHost) (settled : SettledDocuments),
    settleDocuments host causal replay = .ok settled →
    ∀ operation ∈ order, ∀ id, writtenId events operation = some id →
      ¬ CausallyFollowed events causal order id operation.hash →
      ¬ NamedByResolution events order id operation.hash →
        Visible settled id (writtenVersion events operation)

/-- Each resolution keeps every version of its document that it does not name, and no other. -/
def ResolutionsExact (order : List Operation) : Prop :=
  ∀ front resolution back id supersedes document,
    order = front ++ resolution :: back →
    events resolution = some (.resolve id supersedes document) →
    ∀ before after, foldDocuments front events causal = .ok before →
      before.step events causal resolution = .ok after →
      ∀ writer version, before.held id writer = some version →
        (after.held id writer = some version ↔ version.operation ∉ supersedes)

/-- Each resolution names its own writer's earlier versions of the document, unless they were
already replaced when its turn came. -/
def ResolutionsOwnUp (order : List Operation) : Prop :=
  ∀ front resolution back id supersedes document,
    order = front ++ resolution :: back →
    events resolution = some (.resolve id supersedes document) →
    ∀ own ∈ front, own.author = resolution.author → writtenId events own = some id →
      own.hash ∈ supersedes ∨ CausallyFollowed events causal front id own.hash ∨
        NamedByResolution events front id own.hash

end

section

variable {events : Operation → Option KnotSyncEvent} {causal : CausalIndex}
variable {order front back : List Operation} {operation : Operation} {id : String}

theorem replaced_iff {version : Bytes32} :
    (∃ later ∈ order, writtenId events later = some id ∧
      replaces events causal later version = true) ↔
      CausallyFollowed events causal order id version ∨
        NamedByResolution events order id version := by
  constructor
  · rintro ⟨later, member, writes, replaced⟩
    rw [replaces] at replaced
    rcases writtenId_cases writes with ⟨document, read, same⟩ | read | ⟨supersedes, document, read⟩
    · rw [read] at replaced
      exact .inl ⟨later, member, replaced, .inl ⟨document, read, same⟩⟩
    · rw [read] at replaced
      exact .inl ⟨later, member, replaced, .inr read⟩
    · rw [read] at replaced
      exact .inr ⟨later, member, supersedes, document, read, List.contains_iff_mem.mp replaced⟩
  · rintro (⟨later, member, before, ⟨document, read, rfl⟩ | read⟩ |
      ⟨resolution, member, supersedes, document, read, named⟩)
    · refine ⟨later, member, ?_, ?_⟩
      · simp [writtenId, written, read, writeOf]
      · simp [replaces, read, before]
    · refine ⟨later, member, ?_, ?_⟩
      · simp [writtenId, written, read, writeOf]
      · simp [replaces, read, before]
    · refine ⟨resolution, member, ?_, ?_⟩
      · simp [writtenId, written, read, writeOf]
      · simp [replaces, read, named]

theorem CausallyFollowed.mono {version : Bytes32} {part : List Operation}
    (included : ∀ found ∈ part, found ∈ order)
    (followed : CausallyFollowed events causal part id version) :
    CausallyFollowed events causal order id version := by
  obtain ⟨later, member, rest⟩ := followed
  exact ⟨later, included later member, rest⟩

theorem NamedByResolution.mono {version : Bytes32} {part : List Operation}
    (included : ∀ found ∈ part, found ∈ order) (named : NamedByResolution events part id version) :
    NamedByResolution events order id version := by
  obtain ⟨resolution, member, rest⟩ := named
  exact ⟨resolution, included resolution member, rest⟩

theorem ResolvesInTurn.frontTurns (resolves : ResolvesInTurn events causal (front ++ back)) :
    ResolvesInTurn events causal front := by
  intro before operation rest id supersedes document split
  exact resolves before operation (rest ++ back) id supersedes document (by simp [split])

theorem held_or_replaced (ordered : CausalOrder causal order) (chained : SingleWriter causal order)
    (resolves : ResolvesAdmissible events causal order) (member : operation ∈ order)
    (writes : writtenId events operation = some id) :
    slotsOf events causal id order operation.author = some operation ∨
      CausallyFollowed events causal order id operation.hash ∨
      NamedByResolution events order id operation.hash ∨
      ∃ resolution ∈ order, resolution.author = operation.author ∧
        causal.happensBefore operation.hash resolution.hash = true ∧
        ∃ supersedes document, events resolution = some (.resolve id supersedes document) := by
  by_contra nothing
  simp only [not_or] at nothing
  obtain ⟨lost, notFollowed, notNamed, noResolution⟩ := nothing
  refine lost ((slotsOf_eq_some_iff ordered chained resolves _).mpr
    ⟨⟨member, writes⟩, rfl, fun later laterFound laterWrites => ⟨?_, ?_⟩⟩)
  · rintro ⟨author, before⟩
    rcases writtenId_cases laterWrites with put | deletion | resolution
    · exact notFollowed ⟨later, laterFound, before, .inl put⟩
    · exact notFollowed ⟨later, laterFound, before, .inr deletion⟩
    · exact noResolution ⟨later, laterFound, author, before, resolution⟩
  · by_contra replaced
    rw [Bool.not_eq_false] at replaced
    rcases replaced_iff.mp ⟨later, laterFound, laterWrites, replaced⟩ with followed | named
    · exact notFollowed followed
    · exact notNamed named

theorem not_replaced_of_held (ordered : CausalOrder causal order)
    (chained : SingleWriter causal order) (resolves : ResolvesAdmissible events causal order)
    {writer : Bytes32} (held : slotsOf events causal id order writer = some operation) :
    ¬ (CausallyFollowed events causal order id operation.hash ∨
      NamedByResolution events order id operation.hash) := by
  intro replaced
  obtain ⟨later, member, writes, marks⟩ := replaced_iff.mpr replaced
  have kept := ((slotsOf_eq_some_iff ordered chained resolves writer).mp held).2.2 later member
    writes
  rw [kept.2] at marks
  cases marks

theorem visible_of_held {host : MergeHost} {settled : SettledDocuments} {replay : DocumentReplay}
    {version : KnotDocumentVersion} (writer : Bytes32)
    (settling : settleDocuments host causal replay = .ok settled)
    (held : replay.held id writer = some version) : Visible settled id version := by
  unfold DocumentReplay.held at held
  rw [Std.ExtTreeMap.getD_eq_getD_getElem?] at held
  cases read : replay.current[id]? with
  | none => simp [read] at held
  | some versions =>
    rw [read, Option.getD_some] at held
    have member := (mem_values_iff versions version).mpr ⟨writer, held⟩
    cases settles_of_current settling read with
    | sole only values shown head =>
      rw [values, List.mem_singleton] at member
      subst member
      exact .alone head shown
    | merged automatic several merge shown listed =>
      obtain ⟨same, left, right, _, values, _, _, leftSide, rightSide⟩ :=
        automaticTextMerge_spec merge
      rw [values, List.mem_pair] at member
      refine .merged automatic listed same ?_ shown
      rcases member with rfl | rfl
      · exact leftSide
      · exact rightSide
    | contested several declined listed =>
      exact .contested { id, versions := versions.values } listed rfl member

theorem held_after_resolution {before : DocumentReplay} {supersedes : List Bytes32}
    {document : Option VaultDocument}
    (read : events operation = some (.resolve id supersedes document)) (writer : Bytes32) :
    (before.advance events causal operation).held id writer =
      if operation.author = writer then some (writtenVersion events operation)
      else (before.held id writer).filter fun version =>
        !supersedes.contains version.operation := by
  have wrote : written events operation = some (id, document) := by
    simp [written, read, writeOf]
  rw [advance_eq wrote, held_record, held_retain, if_pos rfl, writtenVersion_eq wrote]
  simp only [true_and]
  congr 2
  funext version
  simp [replaces, read]

theorem ResolutionsOwnUp.nothingReplaced (ownUp : ResolutionsOwnUp events causal order)
    (ordered : CausalOrder causal order) (chained : SingleWriter causal order)
    (resolves : ResolvesAdmissible events causal order) (member : operation ∈ order)
    (writes : writtenId events operation = some id) :
    slotsOf events causal id order operation.author = some operation ∨
      CausallyFollowed events causal order id operation.hash ∨
      NamedByResolution events order id operation.hash := by
  rcases held_or_replaced ordered chained resolves member writes with
    held | followed | named | ⟨resolution, found, author, before, supersedes, document, read⟩
  · exact .inl held
  · exact .inr (.inl followed)
  · exact .inr (.inr named)
  · obtain ⟨front, back, rfl⟩ := List.append_of_mem found
    have inFront := ordered.mem_front member before
    have included : ∀ earlier ∈ front, earlier ∈ front ++ resolution :: back := by
      intro earlier earlierFound
      simp [earlierFound]
    rcases ownUp front resolution back id supersedes document rfl read operation inFront
      author.symm writes with own | followed | named
    · exact .inr (.inr ⟨resolution, found, supersedes, document, read, own⟩)
    · exact .inr (.inl (followed.mono included))
    · exact .inr (.inr (named.mono included))

theorem nothingLost_of_ownUp (ordered : CausalOrder causal order)
    (chained : SingleWriter causal order) (resolves : ResolvesAdmissible events causal order)
    (ownUp : ResolutionsOwnUp events causal order) :
    NothingLost events causal order (replayDocuments events causal order) := by
  intro operation member id writes absent
  rcases ownUp.nothingReplaced ordered chained resolves member writes with held | replaced
  · refine absurd ?_ (absent operation.author)
    rw [replayDocuments_held, held, Option.map_some]
  · exact replaced

theorem othersVisible_of_ownUp (ordered : CausalOrder causal order)
    (chained : SingleWriter causal order) (resolves : ResolvesAdmissible events causal order)
    (ownUp : ResolutionsOwnUp events causal order) :
    OthersVisible events causal order (replayDocuments events causal order) := by
  intro host settled settling operation member id writes notFollowed notNamed
  rcases ownUp.nothingReplaced ordered chained resolves member writes with
    held | followed | named
  · refine visible_of_held operation.author settling ?_
    rw [replayDocuments_held, held, Option.map_some]
  · exact absurd followed notFollowed
  · exact absurd named notNamed

theorem slotsOf_mem {writer : Bytes32}
    (held : slotsOf events causal id order writer = some operation) :
    operation ∈ order ∧ writtenId events operation = some id ∧ operation.author = writer := by
  obtain ⟨front, back, split, own, _⟩ := (SlotRegisters.run_eq_some_iff writer operation).mp held
  have member : operation ∈ order.filter (writesTo events id) := by
    rw [split]
    simp
  obtain ⟨found, writes⟩ := mem_filter_writesTo.mp member
  exact ⟨found, writes, own⟩

theorem exact_of_ownUp (ordered : CausalOrder causal order) (chained : SingleWriter causal order)
    (ownUp : ResolutionsOwnUp events causal order) : ResolutionsExact events causal order := by
  intro front resolution back id supersedes document split read before after folded stepped writer
    version held
  subst split
  obtain ⟨turns, rfl⟩ := foldDocuments_eq_ok_iff.mp folded
  obtain ⟨_, rfl⟩ := step_eq_ok_iff.mp stepped
  have frontOrder := ordered.frontOrder
  have frontChained := chained.sublist (List.sublist_append_left front _)
  have resolves := (resolvesInTurn_iff frontOrder).mp turns
  rw [replayDocuments_held] at held
  obtain ⟨own, slot, rfl⟩ := Option.map_eq_some_iff.mp held
  obtain ⟨member, writes, author⟩ := slotsOf_mem slot
  have other : own.hash ≠ resolution.hash := ordered.hash_fresh own member
  rw [held_after_resolution read, replayDocuments_held, slot, Option.map_some]
  by_cases same : resolution.author = writer
  · rw [if_pos same]
    have named : own.hash ∈ supersedes := by
      rcases ownUp front resolution back id supersedes document rfl read own member
        (author.trans same.symm) writes with named | replaced
      · exact named
      · exact absurd replaced (not_replaced_of_held frontOrder frontChained resolves slot)
    constructor
    · intro kept
      have hashes := congrArg (Option.map KnotDocumentVersion.operation) kept
      exact absurd (Option.some.inj hashes).symm other
    · intro unnamed
      exact absurd named unnamed
  · rw [if_neg same, Option.filter_eq_some_iff]
    simp

theorem ResolutionsExact.frontExact (exactly : ResolutionsExact events causal (front ++ back)) :
    ResolutionsExact events causal front := by
  intro before resolution rest id supersedes document split
  exact exactly before resolution (rest ++ back) id supersedes document (by simp [split])

theorem named_of_exact (ordered : CausalOrder causal (front ++ [operation]))
    (turns : ResolvesInTurn events causal (front ++ [operation]))
    (exactly : ResolutionsExact events causal (front ++ [operation])) {supersedes : List Bytes32}
    {document : Option VaultDocument}
    (read : events operation = some (.resolve id supersedes document)) {own : Operation}
    (author : own.author = operation.author)
    (held : slotsOf events causal id front own.author = some own) : own.hash ∈ supersedes := by
  by_contra unnamed
  have admissible := turns front operation [] id supersedes document rfl read
  rw [← replayDocuments_eventDocuments front] at admissible
  have stepped : (replayDocuments events causal front).step events causal operation =
      .ok ((replayDocuments events causal front).advance events causal operation) := by
    refine step_eq_ok_iff.mpr ⟨fun _ _ _ same => ?_, rfl⟩
    rw [read] at same
    cases same
    exact admissible
  have kept := (exactly front operation [] id supersedes document rfl read _ _
    (foldDocuments_eq_ok_iff.mpr ⟨turns.frontTurns, rfl⟩) stepped own.author
    (writtenVersion events own) (by rw [replayDocuments_held, held, Option.map_some])).mpr unnamed
  rw [held_after_resolution read, if_pos author.symm] at kept
  have hashes := congrArg (Option.map KnotDocumentVersion.operation) kept
  exact ordered.hash_fresh own (slotsOf_mem held).1 (Option.some.inj hashes).symm

theorem ownUp_of_exact (ordered : CausalOrder causal order) (chained : SingleWriter causal order)
    (turns : ResolvesInTurn events causal order)
    (exactly : ResolutionsExact events causal order) : ResolutionsOwnUp events causal order := by
  induction order using List.reverseRecOn with
  | nil =>
    intro front resolution back id supersedes document split
    simp at split
  | append_singleton earlier last ih =>
    have earlierOrder := ordered.frontOrder
    have earlierChained := chained.sublist (List.sublist_append_left earlier [last])
    have ownUp := ih earlierOrder earlierChained turns.frontTurns exactly.frontExact
    intro front resolution back id supersedes document split read own member author writes
    rcases append_singleton_eq_iff.mp split with ⟨rfl, rfl, rfl⟩ | ⟨rest, rfl, rfl⟩
    · have resolves := (resolvesInTurn_iff earlierOrder).mp turns.frontTurns
      rcases ownUp.nothingReplaced earlierOrder earlierChained resolves member writes with
        held | replaced
      · exact .inl (named_of_exact ordered turns exactly read author held)
      · exact .inr replaced
    · exact ownUp front resolution rest id supersedes document rfl read own member author writes

end

/-- In every run, no version is lost silently, every version that nothing replaced is visible and
every resolution replaces exactly what it names, if and only if each resolution owns up to its own
writer's standing version. -/
theorem nothing_lost_iff (events : Operation → Option KnotSyncEvent) (causal : CausalIndex)
    (order : List Operation) (replay : DocumentReplay) (ordered : CausalOrder causal order)
    (chained : SingleWriter causal order)
    (folded : foldDocuments order events causal = .ok replay) :
    (NothingLost events causal order replay ∧ OthersVisible events causal order replay ∧
      ResolutionsExact events causal order) ↔ ResolutionsOwnUp events causal order := by
  obtain ⟨turns, rfl⟩ := foldDocuments_eq_ok_iff.mp folded
  have resolves := (resolvesInTurn_iff ordered).mp turns
  constructor
  · rintro ⟨_, _, exactly⟩
    exact ownUp_of_exact ordered chained turns exactly
  · intro ownUp
    exact ⟨nothingLost_of_ownUp ordered chained resolves ownUp,
      othersVisible_of_ownUp ordered chained resolves ownUp, exact_of_ownUp ordered chained ownUp⟩

def partialHistory : List Operation := [.sample 1 10, .sample 2 20, .sample 3 10]

def partialEvents (operation : Operation) : Option KnotSyncEvent :=
  if operation.hash = .filled 3 then
    some (.resolve "note" [.filled 2] (some (.sample "note")))
  else some (.put (.sample "note"))

def partialCausal : CausalIndex := .ofPairs [(1, 3), (2, 3)]

theorem partialHistory_ordered :
    CausalOrder partialCausal partialHistory ∧ SingleWriter partialCausal partialHistory :=
  ⟨⟨by decide, ⟨by decide, by decide, by decide⟩⟩, by unfold SingleWriter; decide⟩

theorem partialHistory_folds :
    (foldDocuments partialHistory partialEvents partialCausal).isOk = true := by decide

theorem partialHistory_loses (replay : DocumentReplay)
    (folded : foldDocuments partialHistory partialEvents partialCausal = .ok replay) :
    ¬ NothingLost partialEvents partialCausal partialHistory replay := by
  intro kept
  have standing : (foldDocuments partialHistory partialEvents partialCausal).toOption.map
      (fun replay => (replay.current.getD "note" ∅).values.map KnotDocumentVersion.operation) =
      some [.filled 3] := by decide +kernel
  rw [folded, Except.toOption, Option.map_some, Option.some.injEq] at standing
  have lost := kept (.sample 1 10) (by decide) "note" (by decide) (by
    intro writer held
    have member := (mem_values_iff _ _).mpr ⟨writer, held⟩
    have hash := List.mem_map_of_mem (f := KnotDocumentVersion.operation) member
    rw [standing, List.mem_singleton] at hash
    exact absurd hash (by decide))
  have after : ∀ later ∈ partialHistory,
      partialCausal.happensBefore (Operation.sample 1 10).hash later.hash = true →
        later = .sample 3 10 := by decide
  have resolves : partialEvents (.sample 3 10) =
      some (.resolve "note" [.filled 2] (some (.sample "note"))) := by decide
  have puts : ∀ later ∈ partialHistory, later ≠ .sample 3 10 →
      partialEvents later = some (.put (.sample "note")) := by decide
  rcases lost with ⟨later, member, before, event⟩ |
    ⟨resolution, member, supersedes, document, read, named⟩
  · rw [after later member before, resolves] at event
    simp at event
  · by_cases last : resolution = .sample 3 10
    · rw [last, resolves] at read
      cases read
      exact absurd named (by decide)
    · rw [puts resolution member last] at read
      cases read

theorem resolution_loses_own_version :
    CausalOrder partialCausal partialHistory ∧ SingleWriter partialCausal partialHistory ∧
    ∃ replay, foldDocuments partialHistory partialEvents partialCausal = .ok replay ∧
      ¬ NothingLost partialEvents partialCausal partialHistory replay := by
  obtain ⟨replay, folded⟩ := isOk_iff.mp partialHistory_folds
  exact ⟨partialHistory_ordered.1, partialHistory_ordered.2, replay, folded,
    partialHistory_loses replay folded⟩

theorem nothing_lost_iff_partialHistory :
    ¬ ResolutionsOwnUp partialEvents partialCausal partialHistory := by
  intro ownUp
  obtain ⟨replay, folded⟩ := isOk_iff.mp partialHistory_folds
  exact partialHistory_loses replay folded
    ((nothing_lost_iff partialEvents partialCausal partialHistory replay
      partialHistory_ordered.1 partialHistory_ordered.2 folded).mpr ownUp).1

end KnotEditor
