import KnotEditor.Sync.DocumentReplay

/-! Which versions of a document are left standing, named by the operations alone. -/

namespace KnotEditor

open KeyedCollections

section

variable (events : Operation → Option KnotSyncEvent) (causal : CausalIndex)
variable (order : List Operation) (id : String)

structure Standing (operation : Operation) : Prop where
  member : operation ∈ order
  writes : writtenId events operation = some id
  kept : ∀ later ∈ order, writtenId events later = some id →
    ¬ (later.author = operation.author ∧
      causal.happensBefore operation.hash later.hash = true) ∧
    replaces events causal later operation.hash = false

structure StandsAlone (operation : Operation) : Prop where
  standing : Standing events causal order id operation
  alone : ∀ other, Standing events causal order id other → other = operation

end

section

variable {events : Operation → Option KnotSyncEvent} {causal : CausalIndex}
variable {order : List Operation} {id : String} {operation : Operation}

theorem slotsOf_eq_some_iff_standing (ordered : CausalOrder causal order)
    (chained : SingleWriter causal order) (resolves : ResolvesAdmissible events causal order)
    (writer : Bytes32) :
    slotsOf events causal id order writer = some operation ↔
      Standing events causal order id operation ∧ operation.author = writer := by
  rw [slotsOf_eq_some_iff ordered chained resolves]
  constructor
  · rintro ⟨⟨member, writes⟩, rfl, kept⟩
    exact ⟨⟨member, writes, kept⟩, rfl⟩
  · rintro ⟨standing, rfl⟩
    exact ⟨⟨standing.member, standing.writes⟩, rfl, standing.kept⟩

theorem current_getElem?_iff (ordered : CausalOrder causal order)
    (chained : SingleWriter causal order) (resolves : ResolvesAdmissible events causal order)
    {versions : WriterVersions}
    (read : (replayDocuments events causal order).current[id]? = some versions) (writer : Bytes32)
    (version : KnotDocumentVersion) :
    versions[writer]? = some version ↔ ∃ operation, Standing events causal order id operation ∧
      operation.author = writer ∧ writtenVersion events operation = version := by
  have held : (replayDocuments events causal order).held id writer = _ :=
    replayDocuments_held order id writer
  rw [DocumentReplay.held, Std.ExtTreeMap.getD_eq_getD_getElem?, read, Option.getD_some] at held
  rw [held, Option.map_eq_some_iff]
  simp only [slotsOf_eq_some_iff_standing ordered chained resolves, and_assoc]

theorem current_of_standing (standing : Standing events causal order id operation) :
    ∃ versions, (replayDocuments events causal order).current[id]? = some versions := by
  rw [← Option.isSome_iff_exists, replayDocuments_current_isSome, List.any_eq_true]
  exact ⟨operation, standing.member, by rw [writesTo, standing.writes, beq_self_eq_true]⟩

theorem current_sole_iff (ordered : CausalOrder causal order)
    (chained : SingleWriter causal order) (resolves : ResolvesAdmissible events causal order)
    {versions : WriterVersions}
    (read : (replayDocuments events causal order).current[id]? = some versions)
    (version : KnotDocumentVersion) :
    versions.values = [version] ↔ ∃ operation, StandsAlone events causal order id operation ∧
      writtenVersion events operation = version := by
  have slots := current_getElem?_iff ordered chained resolves read
  rw [values_eq_singleton_iff]
  constructor
  · rintro ⟨writer, held, only⟩
    obtain ⟨operation, standing, rfl, wrote⟩ := (slots writer version).mp held
    refine ⟨operation, ⟨standing, fun other otherStanding => ?_⟩, wrote⟩
    have author := only other.author _ ((slots _ _).mpr ⟨other, otherStanding, rfl, rfl⟩)
    have slot := (slotsOf_eq_some_iff_standing ordered chained resolves operation.author).mpr
      ⟨standing, rfl⟩
    rw [(slotsOf_eq_some_iff_standing ordered chained resolves operation.author).mpr
      ⟨otherStanding, author⟩] at slot
    exact Option.some.inj slot
  · rintro ⟨operation, sole, wrote⟩
    refine ⟨operation.author, (slots _ _).mpr ⟨operation, sole.standing, rfl, wrote⟩, ?_⟩
    intro writer other held
    obtain ⟨found, standing, author, _⟩ := (slots writer other).mp held
    rw [← author, sole.alone found standing]

theorem standing_above (ordered : CausalOrder causal order)
    (resolves : ResolvesAdmissible events causal order)
    (transitive : ∀ first second third, causal.Precedes first second →
      causal.Precedes second third → causal.Precedes first third)
    (member : operation ∈ order) (writes : writtenId events operation = some id) :
    ∃ last, Standing events causal order id last ∧
      (last = operation ∨ causal.Precedes operation last) := by
  have moves : ∀ event ∈ order, writtenId events event = some id →
      Standing events causal order id event ∨
        ∃ later ∈ order, writtenId events later = some id ∧ causal.Precedes event later := by
    intro event found wrote
    by_cases standing : Standing events causal order id event
    · exact .inl standing
    · refine .inr ?_
      by_contra unfollowed
      push Not at unfollowed
      refine standing ⟨found, wrote, fun later laterFound laterWrites => ?_⟩
      have apart := unfollowed later laterFound laterWrites
      refine ⟨fun own => apart own.2, ?_⟩
      rw [Bool.eq_false_iff]
      exact fun replaced => apart (precedes_of_replaces resolves laterFound replaced)
  obtain ⟨last, _, standing, reached⟩ :=
    ordered.extension.exists_kept transitive moves member writes
  exact ⟨last, standing, reached⟩

theorem written_document_id (resolves : ResolvesAdmissible events causal order)
    (member : operation ∈ order) {document : VaultDocument}
    (wrote : written events operation = some (id, some document)) : document.id = id := by
  obtain ⟨event, read, made⟩ := Option.bind_eq_some_iff.mp wrote
  cases event <;> cases made
  · rfl
  · exact (resolves operation member _ _ _ read).chosen document rfl

end

end KnotEditor
