import KnotEditor.Library.Fallible
import KnotEditor.Library.Accumulation
import KnotEditor.Sync.DocumentFold
import KnotEditor.Sync.History

/-! The document fold over whole replays. Where every resolution is admissible it is a pure replay,
and each document id is a register with one slot for each writer. -/

namespace KnotEditor

open Fallible KeyedCollections

/-- What `validate_resolution` asks of a resolution. -/
structure Admissible (causal : CausalIndex) (eventDocuments : HashMap String)
    (resolution : Bytes32) (id : String) (supersedes : List Bytes32)
    (document : Option VaultDocument) : Prop where
  named : supersedes ≠ []
  bounded : supersedes.length ≤ maxParents
  chosen : ∀ chosen, document = some chosen → chosen.id = id
  distinct : supersedes.Nodup
  targets : ∀ target ∈ supersedes, eventDocuments[target]? = some id ∧
    causal.happensBefore target resolution = true

section

variable {causal : CausalIndex} {eventDocuments : HashMap String} {resolution : Bytes32}
variable {id : String} {supersedes targets : List Bytes32} {document : Option VaultDocument}

theorem validateTarget_ok_iff (target : Bytes32) :
    validateTarget causal eventDocuments resolution id target = .ok () ↔
      eventDocuments[target]? = some id ∧ causal.happensBefore target resolution = true := by
  rw [validateTarget]
  cases found : eventDocuments[target]? with
  | none => simp
  | some targetId =>
    by_cases same : targetId = id
    · cases causal.happensBefore target resolution <;> simp [same]
    · simp [same]

theorem validateTargets_ok_iff (targets : List Bytes32) :
    validateTargets causal eventDocuments resolution id targets = .ok () ↔
      ∀ target ∈ targets, eventDocuments[target]? = some id ∧
        causal.happensBefore target resolution = true := by
  induction targets with
  | nil => simp [validateTargets]
  | cons target rest ih =>
    rw [validateTargets, bind_eq_ok_iff, List.forall_mem_cons, ← ih, ← validateTarget_ok_iff]
    constructor
    · rintro ⟨_, first, others⟩
      exact ⟨first, others⟩
    · rintro ⟨first, others⟩
      exact ⟨(), first, others⟩

theorem mem_resolutionTargets (target : Bytes32) :
    target ∈ (supersedes.insertionSort (· ≤ ·)).dedup ↔ target ∈ supersedes := by
  rw [List.mem_dedup, List.mem_insertionSort]

theorem resolutionTargets_length_iff :
    (supersedes.insertionSort (· ≤ ·)).dedup.length = supersedes.length ↔ supersedes.Nodup := by
  have sorted := List.perm_insertionSort (· ≤ ·) supersedes
  rw [← sorted.length_eq, ← sorted.nodup_iff, ← List.dedup_eq_self]
  exact ⟨fun same => (List.dedup_sublist _).eq_of_length same, fun same => by rw [same]⟩

theorem validateResolution_ok_iff :
    validateResolution causal eventDocuments resolution id supersedes document = .ok targets ↔
      Admissible causal eventDocuments resolution id supersedes document ∧
        targets = (supersedes.insertionSort (· ≤ ·)).dedup := by
  simp only [validateResolution, refuse_eq_ok_iff, bind_eq_ok_iff, List.isEmpty_iff, bne_iff_ne,
    ne_eq, not_not,
    resolutionTargets_length_iff, not_lt]
  constructor
  · rintro ⟨named, bounded, chosen, distinct, _, found, made⟩
    cases made
    refine ⟨⟨named, bounded, ?_, distinct, ?_⟩, rfl⟩
    · rintro document rfl
      simpa using chosen
    · intro target member
      exact (validateTargets_ok_iff _).mp found target ((mem_resolutionTargets target).mpr member)
  · rintro ⟨admissible, rfl⟩
    refine ⟨admissible.named, admissible.bounded, ?_, admissible.distinct, (), ?_, rfl⟩
    · cases document with
      | none => simp
      | some chosen => simpa using admissible.chosen chosen rfl
    · refine (validateTargets_ok_iff _).mpr fun target member => ?_
      exact admissible.targets target ((mem_resolutionTargets target).mp member)

end

def writeOf : KnotSyncEvent → Option (String × Option VaultDocument)
  | .put document => some (document.id, some document)
  | .delete id => some (id, none)
  | .resolve id _ document => some (id, document)
  | _ => none

section

variable (events : Operation → Option KnotSyncEvent) (causal : CausalIndex)

def written (operation : Operation) : Option (String × Option VaultDocument) :=
  (events operation).bind writeOf

def writtenId (operation : Operation) : Option String := (written events operation).map Prod.fst

def writtenVersion (operation : Operation) : KnotDocumentVersion where
  writer := operation.author
  operation := operation.hash
  document := (written events operation).bind Prod.snd

/-- Whether a later write removes an earlier version: a put or a delete observes it, a resolution
names it. -/
def replaces (later : Operation) (held : Bytes32) : Bool :=
  match events later with
  | some (.put _) => causal.happensBefore held later.hash
  | some (.delete _) => causal.happensBefore held later.hash
  | some (.resolve _ supersedes _) => supersedes.contains held
  | _ => false

def DocumentReplay.advance (replay : DocumentReplay) (operation : Operation) : DocumentReplay :=
  match events operation with
  | some (.put document) =>
    replay.replaceObserved causal operation document.id (some document)
  | some (.delete id) => replay.replaceObserved causal operation id none
  | some (.resolve id supersedes document) =>
    (replay.retain id fun version =>
      !supersedes.contains version.operation).record operation id document
  | _ => replay

def replayDocuments (order : List Operation) : DocumentReplay :=
  order.foldl (DocumentReplay.advance events causal) {}

def eventDocumentsOf (order : List Operation) : HashMap String :=
  collect Operation.hash (writtenId events) order

def ResolvesInTurn (order : List Operation) : Prop :=
  ∀ front operation back id supersedes document, order = front ++ operation :: back →
    events operation = some (.resolve id supersedes document) →
      Admissible causal (eventDocumentsOf events front) operation.hash id supersedes document

def ResolvesAdmissible (order : List Operation) : Prop :=
  ∀ operation ∈ order, ∀ id supersedes document,
    events operation = some (.resolve id supersedes document) →
      Admissible causal (eventDocumentsOf events order) operation.hash id supersedes document

end

section

variable {events : Operation → Option KnotSyncEvent} {causal : CausalIndex}
variable {order front back : List Operation} {operation last : Operation}
variable {replay next : DocumentReplay}

theorem step_eq_ok_iff :
    replay.step events causal operation = .ok next ↔
      (∀ id supersedes document, events operation = some (.resolve id supersedes document) →
        Admissible causal replay.eventDocuments operation.hash id supersedes document) ∧
      next = replay.advance events causal operation := by
  rw [DocumentReplay.step, DocumentReplay.advance]
  cases read : events operation with
  | none => simp [eq_comm]
  | some event =>
    cases event with
    | resolve id supersedes document =>
      simp only [bind_eq_ok_iff, validateResolution_ok_iff]
      have keeps (targets : List Bytes32)
          (made : targets = (supersedes.insertionSort (· ≤ ·)).dedup) :
          (fun version : KnotDocumentVersion => !targets.contains version.operation) =
            fun version => !supersedes.contains version.operation := by
        subst made
        funext version
        rw [Bool.eq_iff_iff]
        simp
      constructor
      · rintro ⟨targets, ⟨admissible, made⟩, result⟩
        rw [keeps targets made] at result
        cases result
        exact ⟨fun _ _ _ same => by cases same; exact admissible, rfl⟩
      · rintro ⟨admissible, rfl⟩
        refine ⟨_, ⟨admissible id supersedes document rfl, rfl⟩, ?_⟩
        rw [keeps _ rfl]
        rfl
    | put document => simp [eq_comm]
    | captureFileRevision revision => simp [eq_comm]
    | delete id => simp [eq_comm]
    | assertRelation predicate subject object evidence qualification => simp [eq_comm]
    | retractRelation assertion => simp [eq_comm]
    | definePredicate slug label description subpropertyOf lowersTo supersedes replacedBy =>
      simp [eq_comm]
    | retainCompositionV1 itemJson => simp [eq_comm]
    | organizeCompositionV1 originalAuthor itemId previous organizationJson => simp [eq_comm]

theorem replayDocuments_append_singleton (front : List Operation) (last : Operation) :
    replayDocuments events causal (front ++ [last]) =
      (replayDocuments events causal front).advance events causal last := by
  simp [replayDocuments]

theorem advance_eventDocuments (replay : DocumentReplay) (operation : Operation) :
    (replay.advance events causal operation).eventDocuments =
      match writtenId events operation with
      | some id => replay.eventDocuments.insert operation.hash id
      | none => replay.eventDocuments := by
  rw [DocumentReplay.advance, writtenId, written]
  cases events operation with
  | none => rfl
  | some event => cases event <;> rfl

theorem replayDocuments_eventDocuments (order : List Operation) :
    (replayDocuments events causal order).eventDocuments = eventDocumentsOf events order := by
  rw [eventDocumentsOf]
  induction order using List.reverseRecOn with
  | nil => rfl
  | append_singleton front last ih =>
    rw [replayDocuments_append_singleton, advance_eventDocuments, ih,
      collect_append_singleton]
    cases writtenId events last <;> rfl

theorem resolvesInTurn_append_singleton :
    ResolvesInTurn events causal (front ++ [last]) ↔ ResolvesInTurn events causal front ∧
      ∀ id supersedes document, events last = some (.resolve id supersedes document) →
        Admissible causal (eventDocumentsOf events front) last.hash id supersedes document := by
  constructor
  · intro resolves
    refine ⟨?_, fun id supersedes document => resolves front last [] id supersedes document rfl⟩
    intro before operation back id supersedes document split
    exact resolves before operation (back ++ [last]) id supersedes document (by simp [split])
  · rintro ⟨earlier, final⟩ before operation back id supersedes document split
    rcases Accumulations.append_singleton_eq_iff.mp split with ⟨rfl, rfl, _⟩ | ⟨rest, _, inner⟩
    · exact final id supersedes document
    · exact earlier before operation rest id supersedes document inner

theorem foldDocuments_eq_ok_iff :
    foldDocuments order events causal = .ok replay ↔
      ResolvesInTurn events causal order ∧ replay = replayDocuments events causal order := by
  rw [foldDocuments]
  induction order using List.reverseRecOn generalizing replay with
  | nil =>
    simp only [List.foldlM_nil, pure, Except.pure, Except.ok.injEq, replayDocuments,
      List.foldl_nil, eq_comm, iff_and_self]
    rintro _ front operation back id supersedes document split
    simp at split
  | append_singleton front last ih =>
    simp only [foldlM_append_singleton_eq_ok_iff, ih, step_eq_ok_iff,
      resolvesInTurn_append_singleton, replayDocuments_append_singleton]
    constructor
    · rintro ⟨_, ⟨earlier, rfl⟩, final, rfl⟩
      rw [replayDocuments_eventDocuments] at final
      exact ⟨⟨earlier, final⟩, rfl⟩
    · rintro ⟨⟨earlier, final⟩, rfl⟩
      rw [← replayDocuments_eventDocuments] at final
      exact ⟨_, ⟨earlier, rfl⟩, final, rfl⟩

end

def DocumentReplay.held (replay : DocumentReplay) (id : String) (writer : Bytes32) :
    Option KnotDocumentVersion :=
  (replay.current.getD id ∅)[writer]?

section

variable {events : Operation → Option KnotSyncEvent} {causal : CausalIndex}
variable {order : List Operation} {operation : Operation} {id query : String}
variable {document : Option VaultDocument} {replay : DocumentReplay}

theorem held_retain (keep : KnotDocumentVersion → Bool) (writer : Bytes32) :
    (replay.retain id keep).held query writer =
      if id = query then (replay.held query writer).filter keep else replay.held query writer := by
  simp only [DocumentReplay.held, DocumentReplay.retain, Std.ExtTreeMap.getD_eq_getD_getElem?]
  by_cases same : id = query
  · subst same
    rw [if_pos rfl, Std.ExtTreeMap.getElem?_modify_self]
    cases replay.current[id]? with
    | none => simp
    | some versions => simp
  · rw [if_neg same, Std.ExtTreeMap.getElem?_modify,
      if_neg fun equal => same (Std.LawfulEqOrd.compare_eq_iff_eq.mp equal)]

theorem held_record (writer : Bytes32) :
    (replay.record operation id document).held query writer =
      if id = query ∧ operation.author = writer then
        some { writer := operation.author, operation := operation.hash, document }
      else replay.held query writer := by
  simp only [DocumentReplay.held, DocumentReplay.record, Std.ExtTreeMap.getD_eq_getD_getElem?]
  by_cases same : id = query
  · subst same
    rw [Std.ExtTreeMap.getElem?_insert_self, Option.getD_some]
    by_cases own : operation.author = writer
    · subst own
      rw [Std.ExtTreeMap.getElem?_insert_self, if_pos ⟨rfl, rfl⟩]
    · rw [getElem?_insert_of_ne _ own, if_neg fun both => own both.2]
  · rw [getElem?_insert_of_ne _ same, if_neg fun both => same both.1]

theorem advance_eq (wrote : written events operation = some (id, document)) :
    replay.advance events causal operation =
      (replay.retain id fun version =>
        !replaces events causal operation version.operation).record operation id document := by
  obtain ⟨event, read, made⟩ := Option.bind_eq_some_iff.mp wrote
  simp only [DocumentReplay.advance, replaces]
  cases event <;> cases made <;> simp only [read] <;> rfl

theorem advance_of_not_written (silent : written events operation = none) :
    replay.advance events causal operation = replay := by
  rw [DocumentReplay.advance]
  rw [written] at silent
  cases read : events operation with
  | none => rfl
  | some event =>
    rw [read, Option.bind_some] at silent
    cases event <;> first | rfl | cases silent

theorem writtenVersion_eq (wrote : written events operation = some (id, document)) :
    writtenVersion events operation =
      { writer := operation.author, operation := operation.hash, document } := by
  rw [writtenVersion, wrote]
  rfl

theorem writtenId_eq_some_iff :
    writtenId events operation = some id ↔
      ∃ document, written events operation = some (id, document) := by
  rw [writtenId]
  simp

theorem writtenId_cases (writes : writtenId events operation = some id) :
    (∃ document, events operation = some (.put document) ∧ document.id = id) ∨
      events operation = some (.delete id) ∨
      ∃ supersedes document, events operation = some (.resolve id supersedes document) := by
  obtain ⟨document, wrote⟩ := writtenId_eq_some_iff.mp writes
  obtain ⟨event, read, made⟩ := Option.bind_eq_some_iff.mp wrote
  cases event <;> cases made
  · exact .inl ⟨_, read, rfl⟩
  · exact .inr (.inl read)
  · exact .inr (.inr ⟨_, _, read⟩)

def writesTo (events : Operation → Option KnotSyncEvent) (id : String) (operation : Operation) :
    Bool :=
  writtenId events operation == some id

def slotsOf (events : Operation → Option KnotSyncEvent) (causal : CausalIndex) (id : String)
    (order : List Operation) : Bytes32 → Option Operation :=
  SlotRegisters.run Operation.author (fun later held => replaces events causal later held.hash)
    (order.filter (writesTo events id))

theorem replayDocuments_held (order : List Operation) (id : String) (writer : Bytes32) :
    (replayDocuments events causal order).held id writer =
      (slotsOf events causal id order writer).map (writtenVersion events) := by
  rw [slotsOf]
  induction order using List.reverseRecOn generalizing writer with
  | nil => simp [replayDocuments, DocumentReplay.held, SlotRegisters.run]
  | append_singleton front last ih =>
    rw [replayDocuments_append_singleton, List.filter_append]
    cases wrote : written events last with
    | none =>
      have silent : writesTo events id last = false := by
        simp [writesTo, writtenId, wrote]
      rw [advance_of_not_written wrote, List.filter_singleton, silent, cond_false,
        List.append_nil, ih]
    | some write =>
      obtain ⟨target, document⟩ := write
      rw [advance_eq wrote, held_record, held_retain, ih, List.filter_singleton]
      by_cases same : target = id
      · subst same
        have writes : writesTo events target last = true := by
          simp [writesTo, writtenId, wrote]
        rw [writes, cond_true, SlotRegisters.run_append_singleton, SlotRegisters.write]
        by_cases own : last.author = writer
        · rw [if_pos ⟨rfl, own⟩, if_pos own, Option.map_some, writtenVersion_eq wrote]
        · rw [if_neg fun both => own both.2, if_pos rfl, if_neg own]
          cases SlotRegisters.run Operation.author
            (fun later held => replaces events causal later held.hash)
            (front.filter (writesTo events target)) writer with
          | none => rfl
          | some held =>
            rw [Option.map_some, Option.filter_some, Option.filter_some]
            change (if (!replaces events causal last held.hash) = true then _ else _) = _
            cases replaces events causal last held.hash <;> rfl
      · have silent : writesTo events id last = false := by
          simp [writesTo, writtenId, wrote, same]
        rw [silent, cond_false, List.append_nil, if_neg fun both => same both.1, if_neg same]

theorem replayDocuments_current_isSome (order : List Operation) (id : String) :
    (replayDocuments events causal order).current[id]?.isSome =
      order.any (writesTo events id) := by
  induction order using List.reverseRecOn with
  | nil => simp [replayDocuments]
  | append_singleton front last ih =>
    rw [replayDocuments_append_singleton, List.any_append, ← ih, List.any_cons, List.any_nil,
      Bool.or_false]
    cases wrote : written events last with
    | none => simp [advance_of_not_written wrote, writesTo, writtenId, wrote]
    | some write =>
      obtain ⟨target, document⟩ := write
      rw [advance_eq wrote]
      rw [DocumentReplay.record, DocumentReplay.retain]
      by_cases same : target = id
      · subst same
        simp [writesTo, writtenId, wrote]
      · have skipped (equal : compare target id = .eq) : False :=
          same (Std.LawfulEqOrd.compare_eq_iff_eq.mp equal)
        simp only [getElem?_insert_of_ne _ same, Std.ExtTreeMap.getElem?_modify,
          if_neg skipped]
        simp [writesTo, writtenId, wrote, same]

end

section

variable {events : Operation → Option KnotSyncEvent} {causal : CausalIndex}
variable {order other front back : List Operation} {operation : Operation} {id : String}

theorem Admissible.congr {eventDocuments others : HashMap String} {resolution : Bytes32}
    {supersedes : List Bytes32} {document : Option VaultDocument}
    (agree : ∀ target, causal.happensBefore target resolution = true →
      eventDocuments[target]? = others[target]?)
    (admissible : Admissible causal eventDocuments resolution id supersedes document) :
    Admissible causal others resolution id supersedes document where
  named := admissible.named
  bounded := admissible.bounded
  chosen := admissible.chosen
  distinct := admissible.distinct
  targets := fun target member => by
    obtain ⟨found, before⟩ := admissible.targets target member
    exact ⟨(agree target before).symm.trans found, before⟩

theorem resolvesInTurn_iff (ordered : CausalOrder causal order) :
    ResolvesInTurn events causal order ↔ ResolvesAdmissible events causal order := by
  constructor
  · intro resolves operation member id supersedes document read
    obtain ⟨front, back, rfl⟩ := List.append_of_mem member
    exact (resolves front operation back id supersedes document rfl read).congr
      fun target before => ordered.collect_front (writtenId events) before
  · rintro resolves front operation back id supersedes document rfl read
    exact (resolves operation (by simp) id supersedes document read).congr
      fun target before => (ordered.collect_front (writtenId events) before).symm

theorem resolvesAdmissible_perm (ordered : CausalOrder causal order) (same : order.Perm other)
    (resolves : ResolvesAdmissible events causal order) :
    ResolvesAdmissible events causal other := by
  intro operation member id supersedes document read
  have admissible := resolves operation (same.mem_iff.mpr member) id supersedes document read
  rw [eventDocumentsOf] at admissible ⊢
  rwa [collect_perm same ordered.distinct] at admissible

theorem mem_filter_writesTo :
    operation ∈ order.filter (writesTo events id) ↔
      operation ∈ order ∧ writtenId events operation = some id := by
  rw [List.mem_filter, writesTo, beq_iff_eq]

theorem precedes_of_replaces (resolves : ResolvesAdmissible events causal order)
    {later : Operation} {held : Bytes32} (member : later ∈ order)
    (replaced : replaces events causal later held = true) :
    causal.happensBefore held later.hash = true := by
  rw [replaces] at replaced
  split at replaced
  next => exact replaced
  next => exact replaced
  next id supersedes document read =>
    rw [List.contains_iff_mem] at replaced
    exact ((resolves later member id supersedes document read).targets held replaced).2
  next => cases replaced

/-- The versions left standing, named without the order: no later write of their writer observes
them and no write replaces them. -/
theorem slotsOf_eq_some_iff (ordered : CausalOrder causal order)
    (chained : SingleWriter causal order) (resolves : ResolvesAdmissible events causal order)
    (writer : Bytes32) :
    slotsOf events causal id order writer = some operation ↔
      (operation ∈ order ∧ writtenId events operation = some id) ∧ operation.author = writer ∧
        ∀ later ∈ order, writtenId events later = some id →
          ¬ (later.author = writer ∧
            causal.happensBefore operation.hash later.hash = true) ∧
          replaces events causal later operation.hash = false := by
  have extension := ordered.extension.sublist
    (List.filter_sublist : (order.filter (writesTo events id)).Sublist order)
  rw [slotsOf, SlotRegisters.run_eq_some_iff_of_extension extension]
  · simp only [mem_filter_writesTo, and_imp]
    rfl
  · intro first firstFound second secondFound sameWriter distinct
    exact chained first (mem_filter_writesTo.mp firstFound).1 second
      (mem_filter_writesTo.mp secondFound).1 sameWriter distinct
  · intro later laterFound held _ replaced
    exact precedes_of_replaces resolves (mem_filter_writesTo.mp laterFound).1 replaced

theorem replayDocuments_current_eq (left : CausalOrder causal order)
    (right : CausalOrder causal other) (same : order.Perm other)
    (chained : SingleWriter causal order) (resolves : ResolvesAdmissible events causal order) :
    (replayDocuments events causal order).current =
      (replayDocuments events causal other).current := by
  have otherChained := chained.perm same
  have otherResolves := resolvesAdmissible_perm left same resolves
  have slots (id : String) (writer : Bytes32) :
      slotsOf events causal id order writer = slotsOf events causal id other writer := by
    refine Option.ext fun operation => ?_
    rw [slotsOf_eq_some_iff left chained resolves,
      slotsOf_eq_some_iff right otherChained otherResolves]
    simp only [same.mem_iff]
  have held (id : String) (writer : Bytes32) :
      (replayDocuments events causal order).held id writer =
        (replayDocuments events causal other).held id writer := by
    rw [replayDocuments_held, replayDocuments_held, slots]
  have present (id : String) :
      (replayDocuments events causal order).current[id]?.isSome =
        (replayDocuments events causal other).current[id]?.isSome := by
    rw [replayDocuments_current_isSome, replayDocuments_current_isSome, Bool.eq_iff_iff,
      List.any_eq_true, List.any_eq_true]
    simp only [same.mem_iff]
  refine Std.ExtTreeMap.ext_getElem? fun id => ?_
  have presence := present id
  have contents := held id
  simp only [DocumentReplay.held] at contents
  simp only [Std.ExtTreeMap.getD_eq_getD_getElem?] at contents
  cases leftRead : (replayDocuments events causal order).current[id]? with
  | none =>
    cases rightRead : (replayDocuments events causal other).current[id]? with
    | none => rfl
    | some rightVersions => simp [leftRead, rightRead] at presence
  | some leftVersions =>
    cases rightRead : (replayDocuments events causal other).current[id]? with
    | none => simp [leftRead, rightRead] at presence
    | some rightVersions =>
      rw [leftRead, rightRead] at contents
      exact congrArg some (Std.ExtTreeMap.ext_getElem? contents)

theorem foldDocuments_converges (left : CausalOrder causal order)
    (right : CausalOrder causal other) (same : order.Perm other)
    (chained : SingleWriter causal order) :
    (foldDocuments order events causal).toOption.map DocumentReplay.current =
      (foldDocuments other events causal).toOption.map DocumentReplay.current := by
  refine Option.ext fun current => ?_
  simp only [Option.map_eq_some_iff, toOption_eq_some_iff, foldDocuments_eq_ok_iff,
    resolvesInTurn_iff left, resolvesInTurn_iff right]
  constructor
  · rintro ⟨_, ⟨resolves, rfl⟩, rfl⟩
    exact ⟨_, ⟨resolvesAdmissible_perm left same resolves, rfl⟩,
      (replayDocuments_current_eq left right same chained resolves).symm⟩
  · rintro ⟨_, ⟨otherResolves, rfl⟩, rfl⟩
    have resolves := resolvesAdmissible_perm right same.symm otherResolves
    exact ⟨_, ⟨resolves, rfl⟩, replayDocuments_current_eq left right same chained resolves⟩

end

end KnotEditor
